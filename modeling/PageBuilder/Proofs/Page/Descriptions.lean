import PageBuilder.Page.Descriptor
import PageBuilder.Proofs.Json.Lists

/-!
# Two ways of reading a description

`parseDescription` reads a whole text and then looks at what it holds; `readDescription` makes a
descriptor of every item as it goes along. They find the same descriptions, and where a text begins
with an opening bracket they refuse it for the same reason and in the same place. What is left to
the first is a text that holds no list, which it reads to the end before it says so
(`parseDescription_agrees`).
-/

namespace PageBuilder

open Json

variable {α : Type} {c : Char} {cs rest : List Char} {text : String}

/-! ## Blanks that no JSON text may hold -/

namespace Json

theorem isBlank_of_isSpace (h : isSpace c = true) : Text.isBlank c = true := by
  simp only [isSpace, Bool.or_eq_true, beq_iff_eq] at h
  rcases h with ((rfl | rfl) | rfl) | rfl <;> decide

/-- No value begins with a blank. -/
theorem simpleValue_of_isBlank (hc : Text.isBlank c = true) :
    simpleValue (c :: rest) = .error (.next .expectedValue (c :: rest)) := by
  have hdigit : startsWithDigit (c :: rest) = false := by
    refine Bool.eq_false_iff.2 fun hdigit => ?_
    have hfrom : 48 ≤ c.toNat := (Char.isDigit_iff_toNat.1 hdigit).1
    have hto : c.toNat ≤ 57 := (Char.isDigit_iff_toNat.1 hdigit).2
    simp only [Text.isBlank, Bool.or_eq_true, Bool.and_eq_true, decide_eq_true_eq, beq_iff_eq] at hc
    omega
  have hne : ∀ {d : Char} {ds}, c :: rest = d :: ds → Text.isBlank d = true := by
    intro d ds hd
    rwa [← (List.cons.inj hd).1]
  unfold simpleValue
  split
  · exact absurd (hne ‹_›) (by decide)
  · exact absurd (hne ‹_›) (by decide)
  · exact absurd (hne ‹_›) (by decide)
  · exact absurd (hne ‹_›) (by decide)
  · exact absurd (hne ‹_›) (by decide)
  · rw [hdigit, if_neg Bool.false_ne_true]

/-- A blank that is no space of JSON is refused, whether a value or a list is asked for. -/
theorem eq_error_of_isBlank (h : skipSpace cs = c :: rest) (hc : Text.isBlank c = true)
    (nested : Option (Reader Json)) (item : Reader α) :
    (Reader.valueOver nested).read cs = .error (.next .expectedValue (c :: rest)) ∧
      item.list cs = .error (.next .expectedValue (c :: rest)) := by
  have hlist : c ≠ '[' := by
    rintro rfl
    exact absurd hc (by decide)
  have hobject : c ≠ '{' := by
    rintro rfl
    exact absurd hc (by decide)
  have hsimple := @simpleValue_of_isBlank _ rest hc
  constructor
  · dsimp only [Reader.valueOver]
    rw [h]
    split
    · cases ‹c :: rest = []›
    · exact absurd (List.cons.inj ‹_›).1 hlist
    · exact absurd (List.cons.inj ‹_›).1 hobject
    · exact hsimple
  · rw [Reader.list, h]
    split
    · cases ‹c :: rest = []›
    · exact absurd (List.cons.inj ‹_›).1 hlist
    · exact absurd (List.cons.inj ‹_›).1 hobject
    · rw [hsimple]

/-- A text whose first character that is not blank is an opening bracket begins with it, or with a
blank that is no space of JSON. -/
theorem skipSpace_of_dropWhile_isBlank (h : (cs.dropWhile Text.isBlank).head? = some '[') :
    ∃ c rest, skipSpace cs = c :: rest ∧ (c = '[' ∨ Text.isBlank c = true) := by
  induction cs with
  | nil => cases h
  | cons d cs ih =>
    by_cases hspace : isSpace d = true
    · rw [List.dropWhile_cons_of_pos (isBlank_of_isSpace hspace)] at h
      rw [skipSpace, List.dropWhile_cons_of_pos hspace]
      exact ih h
    · refine ⟨d, cs, List.dropWhile_cons_of_neg hspace, ?_⟩
      by_cases hblank : Text.isBlank d = true
      · exact .inr hblank
      · rw [List.dropWhile_cons_of_neg hblank] at h
        exact .inl (Option.some.inj h)

end Json

/-! ## Descriptions -/

/-- A list in brackets is a description, or refused, in either way. -/
theorem parseDescription_of_list (h : skipSpace text.toList = '[' :: rest) :
    parseDescription text = (readDescription text).mapError .json := by
  rw [parseDescription, read_eq_map_readList h, readDescription, readList_eq id, readList_eq]
  rw [List.map_id_fun]
  cases complete text.toList ((Reader.value (depthLimit - 1)).list text.toList) <;> rfl

/-- A text that begins with a blank which is no space of JSON is refused in either way. -/
theorem parseDescription_of_isBlank (h : skipSpace text.toList = c :: rest)
    (hc : Text.isBlank c = true) :
    parseDescription text = (readDescription text).mapError .json := by
  obtain ⟨hvalue, hlist⟩ := eq_error_of_isBlank h hc
    (some (Reader.value (depthLimit - 1))) (Reader.value (depthLimit - 1))
  replace hvalue : (Reader.value depthLimit).read text.toList = _ := hvalue
  rw [parseDescription, Json.read, hvalue, readDescription, readList_eq, hlist]
  rfl

/-- A description is found in either way or in neither. -/
theorem parseDescription_eq_ok_iff_readDescription (description : List Descriptor) :
    parseDescription text = .ok description ↔ readDescription text = .ok description := by
  by_cases h : (skipSpace text.toList).head? = some '['
  · obtain ⟨rest, hrest⟩ := List.head?_eq_some_iff.1 h
    rw [parseDescription_of_list hrest]
    cases readDescription text with
    | error e =>
      show Except.error (DescriptionError.json e) = .ok description ↔ _
      simp
    | ok found =>
      show Except.ok found = .ok description ↔ _
      simp
  · refine iff_of_false (fun hparse => ?_) (readList_ne_ok h _ description)
    rw [parseDescription] at hparse
    cases hread : Json.read text with
    | error e =>
      rw [hread] at hparse
      cases hparse
    | ok v =>
      have hkind := kind_ne_array_of_read h hread
      rw [hread] at hparse
      cases v with
      | array items => exact hkind rfl
      | null | bool | number | string | object => cases hparse

/-- A text that holds a value but no list is refused for what it holds. -/
theorem parseDescription_eq_notAnArray_iff (kind : Json.Kind) :
    parseDescription text = .error (.notAnArray kind) ↔
      ∃ v, Json.read text = .ok v ∧ v.kind = kind ∧ kind ≠ .array := by
  rw [parseDescription]
  cases Json.read text with
  | error e => simp
  | ok v =>
    simp only [Except.ok.injEq, exists_eq_left']
    cases v with
    | array items => exact iff_of_false nofun fun h => h.2 h.1.symm
    | null | bool | number | string | object =>
      simp only [Except.error.injEq, DescriptionError.notAnArray.injEq, Json.kind]
      constructor
      · rintro rfl
        exact ⟨rfl, Json.Kind.noConfusion⟩
      · exact And.left

/-- **Both ways of reading a description agree.** They find the same descriptions; if the first
character that is not blank is an opening bracket, they refuse the text for the same reason and in
the same place; and the first way says that a text holds no list exactly if it holds another value,
and says of which kind. -/
theorem parseDescription_agrees (text : String) :
    (∀ description,
      parseDescription text = .ok description ↔ readDescription text = .ok description) ∧
    ((text.toList.dropWhile Text.isBlank).head? = some '[' →
      parseDescription text = (readDescription text).mapError .json) ∧
    ∀ kind, parseDescription text = .error (.notAnArray kind) ↔
      ∃ v, Json.read text = .ok v ∧ v.kind = kind ∧ kind ≠ .array := by
  refine ⟨parseDescription_eq_ok_iff_readDescription, fun h => ?_,
    parseDescription_eq_notAnArray_iff⟩
  obtain ⟨c, rest, hcs, rfl | hc⟩ := skipSpace_of_dropWhile_isBlank h
  · exact parseDescription_of_list hcs
  · exact parseDescription_of_isBlank hcs hc

/-- A list is found after blanks and refused for a comma at its end, in either way; a record alone
is no list. -/
theorem parseDescription_agrees_trailingComma :
    parseDescription "\n[\"hr\", [null]]" = .ok [.directive "hr", .element {}] ∧
      ("\n[\"hr\", ]".toList.dropWhile Text.isBlank).head? = some '[' ∧
      parseDescription "\n[\"hr\", ]" = .error (.json ⟨.trailingComma, ⟨2, 8⟩⟩) ∧
      parseDescription "{}" = .error (.notAnArray .object) := by
  obtain ⟨hfound, -, -⟩ := parseDescription_agrees "\n[\"hr\", [null]]"
  obtain ⟨-, hrefused, -⟩ := parseDescription_agrees "\n[\"hr\", ]"
  obtain ⟨-, -, hother⟩ := parseDescription_agrees "{}"
  have hbracket : ("\n[\"hr\", ]".toList.dropWhile Text.isBlank).head? = some '[' := by
    decide +kernel
  refine ⟨(hfound _).2 (by with_unfolding_all rfl), hbracket, ?_,
    (hother .object).2 ⟨.object [], by with_unfolding_all rfl, rfl, Json.Kind.noConfusion⟩⟩
  rw [hrefused hbracket]
  with_unfolding_all rfl

end PageBuilder
