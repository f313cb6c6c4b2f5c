import Mathlib.Data.List.TakeWhile
import Mathlib.Data.String.Basic
import PageBuilder.Text.Characters

/-!
# Trimming and cutting

What `Text.trim` leaves of a text is its largest part without a blank at either end
(`trim_eq_iff`). `cutBytes?` cuts a text after a number of bytes, which is possible only between two
characters (`cutBytes?_eq_some_iff`).
-/

namespace PageBuilder.Text

variable {cs core left right : List Char} {s a b : String} {n : ℕ}

/-- Only blanks. -/
def Blanks (cs : List Char) : Prop := ∀ c ∈ cs, isBlank c = true

/-- No blank at either end. -/
structure Trimmed (cs : List Char) : Prop where
  head : ∀ c ∈ cs.head?, isBlank c = false
  last : ∀ c ∈ cs.getLast?, isBlank c = false

/-- A text with no blank at either end, and the same text with blanks around it. -/
def TrimsTo (cs core : List Char) : Prop :=
  Trimmed core ∧ ∃ left right, Blanks left ∧ Blanks right ∧ cs = left ++ (core ++ right)

/-! ## Trimming -/

theorem exists_eq_trimStart (cs : List Char) : ∃ left, Blanks left ∧ cs = left ++ trimStart cs :=
  ⟨cs.takeWhile isBlank, fun _ => List.mem_takeWhile_imp, (List.takeWhile_append_dropWhile ..).symm⟩

theorem head?_trimStart (cs : List Char) : ∀ c ∈ (trimStart cs).head?, isBlank c = false := by
  intro c hc
  have h := List.head?_dropWhile_not isBlank cs
  rw [trimStart, Option.mem_def] at hc
  simpa [hc] using h

theorem trimStart_append (hleft : Blanks left) (hcore : ∀ c ∈ core.head?, isBlank c = false) :
    trimStart (left ++ core) = core := by
  rw [trimStart, List.dropWhile_append_of_pos hleft]
  cases core with
  | nil => rfl
  | cons c core => rw [List.dropWhile_cons_of_neg]; simpa using hcore c rfl

/-- Trimming takes blanks off both ends. -/
theorem exists_eq_trim (cs : List Char) :
    ∃ left right, Blanks left ∧ Blanks right ∧ cs = left ++ (trim cs ++ right) := by
  obtain ⟨left, hleft, hcs⟩ := exists_eq_trimStart cs
  obtain ⟨right, hright, hback⟩ := exists_eq_trimStart (trimStart cs).reverse
  refine ⟨left, right.reverse, hleft, fun c hc => hright c (List.mem_reverse.1 hc), ?_⟩
  rw [trim, ← List.reverse_append, ← hback, List.reverse_reverse, ← hcs]

theorem trimmed_trim (cs : List Char) : Trimmed (trim cs) := by
  obtain ⟨right, -, hback⟩ := exists_eq_trimStart (trimStart cs).reverse
  have hstart : trimStart cs = trim cs ++ right.reverse := by
    rw [trim, ← List.reverse_append, ← hback, List.reverse_reverse]
  constructor
  · intro c hc
    refine head?_trimStart cs c ?_
    rw [hstart, List.head?_append, Option.mem_def.1 hc]
    rfl
  · intro c hc
    refine head?_trimStart (trimStart cs).reverse c ?_
    rwa [trim, List.getLast?_reverse] at hc

/-- **Trimming.** What is left of a text has no blank at either end, and only blanks were around
it. -/
theorem trim_eq_iff : trim cs = core ↔ TrimsTo cs core := by
  constructor
  · rintro rfl
    exact ⟨trimmed_trim cs, exists_eq_trim cs⟩
  · rintro ⟨hcore, left, right, hleft, hright, rfl⟩
    cases core with
    | nil =>
      have hall : Blanks (left ++ right) := List.forall_mem_append.2 ⟨hleft, hright⟩
      have hstart : trimStart (left ++ right) = [] := by
        rw [← List.append_nil (left ++ right)]
        exact trimStart_append hall (by simp)
      rw [trim, List.nil_append, hstart]
      rfl
    | cons c core =>
      have hstart : trimStart (left ++ (c :: core ++ right)) = c :: core ++ right :=
        trimStart_append hleft fun c' hc' => hcore.head c' hc'
      have hback : trimStart ((c :: core) ++ right).reverse = (c :: core).reverse := by
        rw [List.reverse_append]
        refine trimStart_append (fun c' hc' => hright c' (List.mem_reverse.1 hc')) ?_
        rw [List.head?_reverse]
        exact hcore.last
      rw [trim, hstart, hback, List.reverse_reverse]

/-! ## Cutting -/

/-- The first bytes of a text and all others, if that leaves every character whole. -/
def cutBytes? (s : String) (n : ℕ) : Option (String × String) :=
  if String.Pos.Raw.isValid s ⟨n⟩ then
    some (String.Pos.Raw.extract s 0 ⟨n⟩, String.Pos.Raw.extract s ⟨n⟩ s.rawEndPos)
  else none

theorem extract_append (a b : String) :
    String.Pos.Raw.extract (a ++ b) 0 ⟨a.utf8ByteSize⟩ = a ∧
      String.Pos.Raw.extract (a ++ b) ⟨a.utf8ByteSize⟩ (a ++ b).rawEndPos = b := by
  have hfirst := String.extract_of_valid [] a.toList b.toList
  have hothers := String.extract_of_valid a.toList b.toList []
  have hchars : a.toList ++ b.toList = (a ++ b).toList := String.toList_append.symm
  rw [← String.utf8Len_append] at hothers
  simp only [List.nil_append, List.append_nil, hchars, String.ofList_toList, String.utf8Len_toList,
    String.utf8Len_nil, Nat.zero_add] at hfirst hothers
  exact ⟨hfirst, hothers⟩

/-- **Cutting.** A text is cut in two where its first part has the number of bytes. -/
theorem cutBytes?_eq_some_iff : cutBytes? s n = some (a, b) ↔ s = a ++ b ∧ a.utf8ByteSize = n := by
  have hcut (a b : String) : cutBytes? (a ++ b) a.utf8ByteSize = some (a, b) := by
    obtain ⟨hfirst, hothers⟩ := extract_append a b
    have hvalid : String.Pos.Raw.isValid (a ++ b) ⟨a.utf8ByteSize⟩ = true :=
      String.Pos.Raw.isValid_eq_true_iff.2
        (String.Pos.Raw.isValid_iff_exists_append.2 ⟨a, b, rfl, rfl⟩)
    rw [cutBytes?, if_pos hvalid, hfirst, hothers]
  constructor
  · intro h
    have hvalid : String.Pos.Raw.isValid s ⟨n⟩ = true := by
      rw [cutBytes?] at h
      split_ifs at h with hvalid
      exact hvalid
    obtain ⟨a', b', rfl, hn⟩ :=
      String.Pos.Raw.isValid_iff_exists_append.1 (String.Pos.Raw.isValid_eq_true_iff.1 hvalid)
    obtain rfl : n = a'.utf8ByteSize := congrArg String.Pos.Raw.byteIdx hn
    rw [hcut, Option.some_inj, Prod.mk.injEq] at h
    obtain ⟨rfl, rfl⟩ := h
    exact ⟨rfl, rfl⟩
  · rintro ⟨rfl, rfl⟩
    exact hcut a b

end PageBuilder.Text
