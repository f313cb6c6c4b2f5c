import PageBuilder.Markup.Fragment
import PageBuilder.Proofs.Markup.Forms

/-!
# Escaping by a table of entities

Which characters are escaped, and how, can be said by a table of entities: one for texts and one
for attribute values, which has the quote besides. If a table is unambiguous, whatever is written
with it has no escaped character but ampersands, every ampersand in it begins an entity, and reading
the entities back gives what was written (`IsUnambiguous.writes`). Both tables are, and so nothing
that is escaped can end the markup around it or be taken for something else
(`escape_safe_and_lossless`), and the reader of markup reads it as it was (`decodedText_escapeText`,
`decodedText_escapeValue`).
-/

namespace PageBuilder.Markup

/-! ## Tables of entities -/

/-- How a character is written with the entities of a table. -/
def formWith (entities : List Entity) (c : Char) : String :=
  match entities.find? (·.char == c) with
  | some e => e.written
  | none => String.singleton c

/-- A table whose entities can be told apart from each other and from other characters. -/
structure IsUnambiguous (entities : List Entity) : Prop where
  ampersand : ∃ e ∈ entities, e.char = '&'
  head : ∀ e ∈ entities, e.written.toList.head? = some '&'
  /-- There is no ampersand inside of an entity. -/
  tail : ∀ e ∈ entities, '&' ∉ e.written.toList.tail
  /-- No entity begins with another. -/
  apart : ∀ e ∈ entities, ∀ e' ∈ entities, e.written.toList <+: e'.written.toList → e = e'
  /-- No entity has a character in it that is escaped, the ampersand apart. -/
  clean : ∀ e ∈ entities, ∀ e' ∈ entities, e.char ≠ '&' → e.char ∉ e'.written.toList

theorem isUnambiguous_textEntities : IsUnambiguous textEntities :=
  ⟨by decide, by decide, by decide, by decide, by decide⟩

theorem isUnambiguous_valueEntities : IsUnambiguous valueEntities :=
  ⟨by decide, by decide, by decide, by decide, by decide⟩

theorem textForm_eq_formWith : textForm = formWith textEntities := by
  funext c
  by_cases hc : IsPlain c
  · have hnone : textEntities.find? (·.char == c) = none := by
      obtain ⟨hamp, hlt, hgt⟩ := hc
      simp [textEntities, hamp.symm, hlt.symm, hgt.symm]
    rw [textForm_of_isPlain hc, formWith, hnone]
  · obtain rfl | rfl | rfl := eq_of_not_isPlain hc <;> rfl

theorem valueForm_eq_formWith : valueForm = formWith valueEntities := by
  funext c
  by_cases hc : c = '"'
  · rw [hc]
    rfl
  · have hfind : valueEntities.find? (·.char == c) = textEntities.find? (·.char == c) := by
      simp [valueEntities, List.find?_append, Ne.symm hc]
    rw [valueForm_of_ne_quote hc, textForm_eq_formWith, formWith, formWith, hfind]

/-! ## Reading back -/

variable {entities : List Entity} {e : Entity} {c : Char} {s : String}

theorem Entity.begins_iff {cs : List Char} : e.begins cs = true ↔ e.written.toList <+: cs :=
  List.isPrefixOf_iff_prefix

/-- What reads the form of each character as the character reads them one after another. -/
theorem decodeWith_flatMap {form : Char → String}
    (h : ∀ c rest, decodeWith entities ((form c).toList ++ rest) = c :: decodeWith entities rest)
    (cs : List Char) : decodeWith entities (cs.flatMap fun c => (form c).toList) = cs := by
  induction cs with
  | nil => rw [List.flatMap_nil, decodeWith]
  | cons c cs ih => rw [List.flatMap_cons, h, ih]

/-- Either there is an entity for a character, or the character stands for itself. -/
theorem formWith_cases (entities : List Entity) (c : Char) :
    (∃ e ∈ entities, e.char = c ∧ formWith entities c = e.written) ∨
      (∀ e ∈ entities, e.char ≠ c) ∧ formWith entities c = String.singleton c := by
  rw [formWith]
  cases h : entities.find? (·.char == c) with
  | some e => exact .inl ⟨e, List.mem_of_find?_eq_some h, by simpa using List.find?_some h, rfl⟩
  | none => exact .inr ⟨by simpa using List.find?_eq_none.1 h, rfl⟩

namespace IsUnambiguous

variable (h : IsUnambiguous entities)
include h

theorem exists_toList_eq (he : e ∈ entities) :
    ∃ body, e.written.toList = '&' :: body ∧ '&' ∉ body := by
  have hhead := h.head e he
  have htail := h.tail e he
  cases hlist : e.written.toList with
  | nil => simp [hlist] at hhead
  | cons c body =>
    rw [hlist] at hhead htail
    cases hhead
    exact ⟨body, rfl, htail⟩

/-- An entity is recognized whatever comes after it. -/
theorem find?_begins (he : e ∈ entities) (rest : List Char) :
    entities.find? (Entity.begins (e.written.toList ++ rest)) = some e := by
  have hself : e.begins (e.written.toList ++ rest) = true :=
    Entity.begins_iff.2 (List.prefix_append _ _)
  obtain ⟨e', he'⟩ := Option.isSome_iff_exists.1 (List.find?_isSome.2 ⟨e, he, hself⟩)
  have hmem := List.mem_of_find?_eq_some he'
  have hprefix := Entity.begins_iff.1 (List.find?_some he')
  rcases List.prefix_or_prefix_of_prefix hprefix (List.prefix_append _ _) with hle | hle
  · rw [he', h.apart e' hmem e he hle]
  · rw [he', h.apart e he e' hmem hle]

/-- Only an ampersand can begin an entity. -/
theorem decodeWith_cons (hc : c ≠ '&') (rest : List Char) :
    decodeWith entities (c :: rest) = c :: decodeWith entities rest := by
  have hnone : entities.find? (Entity.begins (c :: rest)) = none := by
    refine List.find?_eq_none.2 fun e he hprefix => ?_
    obtain ⟨body, hwritten, -⟩ := h.exists_toList_eq he
    rw [Entity.begins_iff, hwritten, List.cons_prefix_cons] at hprefix
    exact hc hprefix.1.symm
  rw [decodeWith, hnone]

theorem decodeWith_formWith (c : Char) (rest : List Char) :
    decodeWith entities ((formWith entities c).toList ++ rest) = c :: decodeWith entities rest := by
  obtain ⟨e, he, rfl, hform⟩ | ⟨hne, hform⟩ := formWith_cases entities c
  · obtain ⟨body, hwritten, -⟩ := h.exists_toList_eq he
    have hfind := h.find?_begins he rest
    have hlength : e.written.length = body.length + 1 := by
      rw [← String.length_toList, hwritten, List.length_cons]
    rw [hwritten, List.cons_append] at hfind
    rw [hform, hwritten, List.cons_append, decodeWith, hfind]
    simp [hlength]
  · obtain ⟨e, he, hamp⟩ := h.ampersand
    have hc : c ≠ '&' := fun hc => hne e he (hamp.trans hc.symm)
    rw [hform, String.toList_singleton, List.singleton_append, h.decodeWith_cons hc]

/-! ## What is written with a table -/

/-- The form of a character has an ampersand at its beginning alone, and then it is an entity. -/
theorem eq_nil_of_formWith {before after : List Char}
    (hform : (formWith entities c).toList = before ++ '&' :: after) :
    before = [] ∧ ∃ e ∈ entities, formWith entities c = e.written := by
  obtain ⟨e, he, -, hwritten⟩ | ⟨hne, hplain⟩ := formWith_cases entities c
  · refine ⟨?_, e, he, hwritten⟩
    obtain ⟨body, hbody, hinside⟩ := h.exists_toList_eq he
    rw [hwritten, hbody] at hform
    cases before with
    | nil => rfl
    | cons first before =>
      obtain ⟨-, rfl⟩ := List.cons.inj hform
      exact absurd (List.mem_append_right before List.mem_cons_self) hinside
  · -- a character that stands for itself is no ampersand
    have hmem : '&' ∈ (formWith entities c).toList := by
      rw [hform]
      exact List.mem_append_right before List.mem_cons_self
    rw [hplain, String.toList_singleton, List.mem_singleton] at hmem
    obtain ⟨e, he, hamp⟩ := h.ampersand
    exact absurd (hamp.trans hmem) (hne e he)

/-- **Every ampersand begins an entity.** -/
theorem exists_prefix_of_flatMap {cs before after : List Char}
    (hcs : (cs.flatMap fun c => (formWith entities c).toList) = before ++ '&' :: after) :
    ∃ e ∈ entities, e.written.toList <+: '&' :: after := by
  induction cs generalizing before with
  | nil => simp at hcs
  | cons c cs ih =>
    rw [List.flatMap_cons, List.append_eq_append_iff] at hcs
    rcases hcs with ⟨more, -, hmore⟩ | ⟨inside, hform, hmore⟩
    · exact ih hmore
    · cases inside with
      | nil =>
        have hrest : (cs.flatMap fun c => (formWith entities c).toList) = [] ++ '&' :: after :=
          hmore.symm
        exact ih hrest
      | cons first inside =>
        obtain ⟨rfl, rfl⟩ := List.cons.inj hmore
        obtain ⟨rfl, e, he, hwritten⟩ := h.eq_nil_of_formWith hform
        refine ⟨e, he, ?_⟩
        rw [← hwritten, hform]
        exact List.prefix_append _ _

/-- No character is left that is escaped, the ampersand apart. -/
theorem not_mem_flatMap (he : e ∈ entities) (hne : e.char ≠ '&') (cs : List Char) :
    e.char ∉ cs.flatMap fun c => (formWith entities c).toList := by
  rw [List.mem_flatMap]
  rintro ⟨c, -, hmem⟩
  obtain ⟨e', he', -, hform⟩ | ⟨hplain, hform⟩ := formWith_cases entities c
  · rw [hform] at hmem
    exact h.clean e he e' he' hne hmem
  · rw [hform, String.toList_singleton, List.mem_singleton] at hmem
    exact hplain e he hmem

end IsUnambiguous

/-- What can be relied on in a text that is written with the entities of a table. -/
structure Writes (entities : List Entity) (s written : String) : Prop where
  /-- No character is left that is escaped, the ampersand apart. -/
  not_mem : ∀ e ∈ entities, e.char ≠ '&' → e.char ∉ written.toList
  /-- Every ampersand begins an entity. -/
  entity : ∀ before after, written.toList = before ++ '&' :: after →
    ∃ e ∈ entities, e.written.toList <+: '&' :: after
  decoded : decodeWith entities written.toList = s.toList

theorem IsUnambiguous.writes (h : IsUnambiguous entities) (s : String) :
    Writes entities s (String.join (s.toList.map (formWith entities))) := by
  have htoList : (String.join (s.toList.map (formWith entities))).toList =
      s.toList.flatMap fun c => (formWith entities c).toList := by
    rw [String.toList_join, List.flatMap_map]
  refine ⟨fun e he hne => ?_, fun before after heq => ?_, ?_⟩
  · rw [htoList]
    exact h.not_mem_flatMap he hne s.toList
  · rw [htoList] at heq
    exact h.exists_prefix_of_flatMap heq
  · rw [htoList]
    exact decodeWith_flatMap h.decodeWith_formWith s.toList

/-- A text can be told from what is written for it. -/
theorem Writes.eq {s s' written : String} (h : Writes entities s written)
    (h' : Writes entities s' written) : s = s' :=
  String.toList_inj.1 (h.decoded.symm.trans h'.decoded)

theorem writes_escapeText (s : String) : Writes textEntities s (escapeText s) := by
  rw [escapeText, textForm_eq_formWith]
  exact isUnambiguous_textEntities.writes s

theorem writes_escapeValue (s : String) : Writes valueEntities s (escapeValue s) := by
  rw [escapeValue, valueForm_eq_formWith]
  exact isUnambiguous_valueEntities.writes s

/-- Escaped text does not open a tag. -/
theorem not_mem_escapeText (s : String) : '<' ∉ (escapeText s).toList :=
  (writes_escapeText s).not_mem ⟨"&lt;", '<'⟩ (by decide) (by decide)

/-- An escaped value does not end its quotes. -/
theorem not_mem_escapeValue (s : String) : '"' ∉ (escapeValue s).toList :=
  (writes_escapeValue s).not_mem ⟨"&quot;", '"'⟩ (by decide) (by decide)

/-! ## The reader of markup

Markup is read with the entities of attribute values, wherever they stand. In a text no quote is
written as an entity, and one that stands for itself is read as such.
-/

/-- **An escaped value reads as the value.** -/
theorem decodedText_escapeValue (s : String) : decodedText (escapeValue s).toList = s := by
  rw [decodedText, (writes_escapeValue s).decoded, String.ofList_toList]

theorem decodeWith_textForm (c : Char) (rest : List Char) :
    decodeWith valueEntities ((textForm c).toList ++ rest) =
      c :: decodeWith valueEntities rest := by
  by_cases hc : c = '"'
  · subst hc
    exact isUnambiguous_valueEntities.decodeWith_cons (by decide) rest
  · rw [← valueForm_of_ne_quote hc, valueForm_eq_formWith]
    exact isUnambiguous_valueEntities.decodeWith_formWith c rest

/-- **Escaped text reads as the text.** -/
theorem decodedText_escapeText (s : String) : decodedText (escapeText s).toList = s := by
  rw [decodedText, escapeText, String.toList_join, List.flatMap_map,
    decodeWith_flatMap decodeWith_textForm, String.ofList_toList]

/-! ## Writing character by character -/

theorem appendEscaped_eq (form : Char → String) (buffer s : String) :
    appendEscaped form buffer s = buffer ++ String.join (s.toList.map form) := by
  rw [appendEscaped]
  induction s.toList generalizing buffer with
  | nil => rw [List.foldl_nil, List.map_nil, String.join_nil, String.append_empty]
  | cons c cs ih =>
    rw [List.foldl_cons, ih, List.map_cons, String.join_cons, String.append_assoc]

/-- **Escaping is safe and loses nothing.** What is in the buffer is kept, and what comes after it
has no bracket, and no quote if it is an attribute value; each of its ampersands begins an entity,
and the entities, read once and from left to right, give what was written. So different texts never
look the same, nor do different values. -/
theorem escape_safe_and_lossless :
    (∀ buffer s, appendEscaped textForm buffer s = buffer ++ escapeText s ∧
      '<' ∉ (escapeText s).toList ∧ '>' ∉ (escapeText s).toList ∧
      Writes textEntities s (escapeText s)) ∧
    (∀ buffer s, appendEscaped valueForm buffer s = buffer ++ escapeValue s ∧
      '<' ∉ (escapeValue s).toList ∧ '>' ∉ (escapeValue s).toList ∧
      '"' ∉ (escapeValue s).toList ∧ Writes valueEntities s (escapeValue s)) ∧
    Function.Injective escapeText ∧ Function.Injective escapeValue := by
  refine ⟨fun buffer s => ?_, fun buffer s => ?_, fun s s' heq => ?_, fun s s' heq => ?_⟩
  · have h := writes_escapeText s
    exact ⟨appendEscaped_eq textForm buffer s, not_mem_escapeText s,
      h.not_mem ⟨"&gt;", '>'⟩ (by decide) (by decide), h⟩
  · have h := writes_escapeValue s
    exact ⟨appendEscaped_eq valueForm buffer s,
      h.not_mem ⟨"&lt;", '<'⟩ (by decide) (by decide),
      h.not_mem ⟨"&gt;", '>'⟩ (by decide) (by decide),
      not_mem_escapeValue s, h⟩
  · exact (writes_escapeText s).eq (heq ▸ writes_escapeText s')
  · exact (writes_escapeValue s).eq (heq ▸ writes_escapeValue s')

/-- What looks like an entity already is escaped all the same. -/
example : escapeText "&lt;" = "&amp;lt;" := by decide

end PageBuilder.Markup
