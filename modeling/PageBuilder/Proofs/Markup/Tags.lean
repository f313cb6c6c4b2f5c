import PageBuilder.Proofs.Markup.Escapes
import PageBuilder.Proofs.Markup.Roses

/-!
# Reading tags

What stands in a tag is read back as it was written: attributes whose names are made of characters
that do not end one (`readAttributes?_append`), and end tags (`readEndTag?_append`).

The text of a style is written as it is, and read up to the first end tag for styles. It is read
back exactly if it holds no such end tag itself (`splitStyle_append`, `length_splitStyle_lt`).
-/

namespace PageBuilder.Markup

open Dom Fragment

/-! ## Names -/

/-- A text that is read as one name. -/
def IsName (s : String) : Prop := s ≠ "" ∧ ∀ c ∈ s.toList, endsName c = false

instance (s : String) : Decidable (IsName s) :=
  -- over the characters of `s`, where the instance found alone may run over all characters
  decidable_of_iff (s ≠ "" ∧ s.toList.all (!endsName ·) = true) (by simp [IsName])

/-- Characters at which a name ends. -/
def StopsName (cs : List Char) : Prop := ∃ c rest, cs = c :: rest ∧ endsName c = true

variable {name tag : String} {after rest : List Char} {attributes : List (String × String)}

theorem takeWhile_name (hname : ∀ c ∈ name.toList, endsName c = false) (hafter : StopsName after) :
    (name.toList ++ after).takeWhile (!endsName ·) = name.toList := by
  obtain ⟨c, rest, rfl, hc⟩ := hafter
  rw [List.takeWhile_append_of_pos (by simpa using hname),
    List.takeWhile_cons_of_neg (by simp [hc]), List.append_nil]

theorem dropWhile_name (hname : ∀ c ∈ name.toList, endsName c = false) (hafter : StopsName after) :
    (name.toList ++ after).dropWhile (!endsName ·) = after := by
  obtain ⟨c, rest, rfl, hc⟩ := hafter
  rw [List.dropWhile_append_of_pos (by simpa using hname),
    List.dropWhile_cons_of_neg (by simp [hc])]

/-! ## Attributes -/

/-- The characters of an attribute after its name. -/
def valueText (value : String) : List Char :=
  if value = "" then [] else '=' :: '"' :: ((escapeValue value).toList ++ ['"'])

theorem toList_attributeText (name value : String) :
    (attributeText name value).toList = ' ' :: (name.toList ++ valueText value) := by
  rw [attributeText, valueText]
  split <;> simp

/-- The characters of attributes. -/
def attributesText (attributes : List (String × String)) : List Char :=
  attributes.flatMap fun a => (attributeText a.1 a.2).toList

theorem attributesText_cons (a : String × String) (attributes : List (String × String)) :
    attributesText (a :: attributes) =
      ' ' :: (a.1.toList ++ (valueText a.2 ++ attributesText attributes)) := by
  rw [attributesText, List.flatMap_cons, toList_attributeText, ← attributesText]
  simp

/-- What closes a start tag. -/
def Closes (cs : List Char) : Prop := ∃ rest, cs = '>' :: rest ∨ cs = ' ' :: '/' :: rest

theorem Closes.stopsName (h : Closes after) : StopsName after := by
  obtain ⟨rest, rfl | rfl⟩ := h
  · exact ⟨_, _, rfl, rfl⟩
  · exact ⟨_, _, rfl, rfl⟩

theorem stopsName_attributesText (attributes : List (String × String)) (h : Closes after) :
    StopsName (attributesText attributes ++ after) := by
  cases attributes with
  | nil => exact h.stopsName
  | cons a attributes => exact ⟨' ', _, by rw [attributesText_cons]; rfl, rfl⟩

/-- An attribute without a value is followed by no value. -/
theorem ne_equals_of_closes (attributes : List (String × String)) (h : Closes after)
    (rest : List Char) :
    attributesText attributes ++ after ≠ '=' :: rest := by
  cases attributes with
  | nil => obtain ⟨more, rfl | rfl⟩ := h <;> simp [attributesText]
  | cons a attributes => simp [attributesText_cons]

/-- An attribute without a value is read, and then the others. -/
theorem readAttributes?_name (hname : IsName name) (hafter : StopsName after)
    (hvalue : ∀ rest, after ≠ '=' :: rest) (k : ℕ) :
    readAttributes? (k + 1) (' ' :: (name.toList ++ after)) =
      (readAttributes? k after).map fun (more, after) => ((name, "") :: more, after) := by
  have htake := takeWhile_name hname.2 hafter
  have hdrop := dropWhile_name hname.2 hafter
  have hchars : name.toList ≠ [] := mt String.toList_eq_nil_iff.1 hname.1
  rw [readAttributes?, htake, hdrop]
  split
  · exact absurd ‹name.toList = []› hchars
  · exact absurd rfl (hvalue _)
  · rw [String.ofList_toList]

/-- An attribute with a value is read, and then the others. -/
theorem readAttributes?_value (hname : IsName name) (value : String) (after : List Char) (k : ℕ) :
    readAttributes? (k + 1)
        (' ' :: (name.toList ++ '=' :: '"' :: ((escapeValue value).toList ++ '"' :: after))) =
      (readAttributes? k after).map fun (more, after) => ((name, value) :: more, after) := by
  have hstop : StopsName ('=' :: '"' :: ((escapeValue value).toList ++ '"' :: after)) :=
    ⟨_, _, rfl, rfl⟩
  have htake := takeWhile_name hname.2 hstop
  have hdrop := dropWhile_name hname.2 hstop
  have hchars : name.toList ≠ [] := mt String.toList_eq_nil_iff.1 hname.1
  have hquote : ∀ c ∈ (escapeValue value).toList, (c != '"') = true := fun c hc =>
    bne_iff_ne.2 fun heq => not_mem_escapeValue value (heq ▸ hc)
  rw [readAttributes?, htake, hdrop]
  split
  · exact absurd ‹name.toList = []› hchars
  · rename_i hshape _
    cases hshape
    rw [List.takeWhile_append_of_pos hquote, List.dropWhile_append_of_pos hquote,
      List.takeWhile_cons_of_neg (by simp), List.dropWhile_cons_of_neg (by simp), List.append_nil,
      decodedText_escapeValue, String.ofList_toList]
  · rename_i hshape
    exact absurd rfl (hshape _)

/-- **Attributes are read back as they were written.** -/
theorem readAttributes?_append (hnames : ∀ a ∈ attributes, IsName a.1) (hafter : Closes after)
    {k : ℕ} (hk : attributes.length < k) :
    readAttributes? k (attributesText attributes ++ after) = some (attributes, after) := by
  induction attributes generalizing k with
  | nil =>
    obtain ⟨k, rfl⟩ := Nat.exists_eq_add_one_of_ne_zero (Nat.ne_of_gt hk)
    obtain ⟨rest, rfl | rfl⟩ := hafter
    · rfl
    · rfl
  | cons a attributes ih =>
    obtain ⟨k, rfl⟩ := Nat.exists_eq_add_one_of_ne_zero (Nat.ne_of_gt (Nat.zero_lt_of_lt hk))
    obtain ⟨name, value⟩ := a
    have hname := hnames _ List.mem_cons_self
    have hmore := ih (k := k) (fun b hb => hnames b (List.mem_cons_of_mem _ hb))
      (Nat.lt_of_succ_lt_succ hk)
    rw [attributesText_cons, valueText]
    by_cases hvalue : value = ""
    · simp only [hvalue, if_true, List.nil_append, List.cons_append, List.append_assoc]
      rw [readAttributes?_name hname (stopsName_attributesText attributes hafter)
        (ne_equals_of_closes attributes hafter), hmore]
      rfl
    · simp only [hvalue, if_false, List.cons_append, List.append_assoc, List.nil_append]
      rw [readAttributes?_value hname, hmore]
      rfl

/-! ## End tags -/

/-- **An end tag is read back.** -/
theorem readEndTag?_append (tag : String) (rest : List Char) :
    readEndTag? tag ((endTag tag).toList ++ rest) = some rest := by
  simp [readEndTag?]

/-! ## The text of styles -/

/-- Whether an end tag for styles begins somewhere. -/
def HoldsStyleEnd (cs : List Char) : Prop :=
  ∃ before after, cs = before ++ after ∧ startsStyleEnd after = true

theorem holdsStyleEnd_cons {c : Char} {cs : List Char} :
    HoldsStyleEnd (c :: cs) ↔ startsStyleEnd (c :: cs) = true ∨ HoldsStyleEnd cs := by
  constructor
  · rintro ⟨before, after, heq, hafter⟩
    cases before with
    | nil => exact .inl (heq ▸ hafter)
    | cons b before => exact .inr ⟨before, after, (List.cons.inj heq).2, hafter⟩
  · rintro (h | ⟨before, after, rfl, hafter⟩)
    · exact ⟨[], _, rfl, h⟩
    · exact ⟨c :: before, after, rfl, hafter⟩

theorem not_holdsStyleEnd_nil : ¬ HoldsStyleEnd [] := by
  rintro ⟨before, after, heq, hafter⟩
  obtain ⟨rfl, rfl⟩ := List.nil_eq_append_iff.1 heq
  cases hafter

instance decidableHoldsStyleEnd : DecidablePred HoldsStyleEnd
  | [] => isFalse not_holdsStyleEnd_nil
  | _ :: cs =>
    let _ := decidableHoldsStyleEnd cs
    decidable_of_iff _ holdsStyleEnd_cons.symm

/-- An end tag for styles is its name, in letters of either case, and what can follow a name. -/
theorem startsStyleEnd_iff {cs : List Char} :
    startsStyleEnd cs = true ↔ ∃ name c rest, cs = name ++ c :: rest ∧
      name.map Char.toLower = "</style".toList ∧
      [' ', '\t', '\n', '\x0c', '\r', '/', '>'].contains c = true := by
  rw [startsStyleEnd, Bool.and_eq_true, beq_iff_eq]
  constructor
  · rintro ⟨hname, hnext⟩
    cases hdrop : cs.drop 7 with
    | nil => simp [hdrop] at hnext
    | cons c rest =>
      rw [hdrop] at hnext
      exact ⟨cs.take 7, c, rest, by rw [← hdrop, List.take_append_drop], hname, hnext⟩
  · rintro ⟨name, c, rest, rfl, hname, hc⟩
    have hlength : name.length = 7 := by
      rw [← List.length_map (f := Char.toLower), hname]
      rfl
    rw [List.take_left' hlength, List.drop_left' hlength]
    exact ⟨hname, hc⟩

/-- An end tag for styles has no opening bracket but its first character, so what begins with one
cannot complete it. -/
theorem startsStyleEnd_append {cs rest : List Char} (hne : cs ≠ []) :
    startsStyleEnd (cs ++ '<' :: rest) = true ↔ startsStyleEnd cs = true := by
  rw [startsStyleEnd_iff, startsStyleEnd_iff]
  constructor
  · rintro ⟨name, c, more, heq, hname, hc⟩
    rw [← List.singleton_append (x := c), ← List.append_assoc, List.append_eq_append_iff] at heq
    rcases heq with ⟨a, hcs, ha⟩ | ⟨a, hcs, -⟩
    · cases a with
      | nil => exact ⟨name, c, [], by simpa using hcs.symm, hname, hc⟩
      | cons b a =>
        -- the bracket would stand inside the end tag
        obtain ⟨rfl, -⟩ := List.cons.inj ha
        obtain ⟨d, cs, rfl⟩ := List.exists_cons_of_ne_nil hne
        cases name with
        | nil => cases hname
        | cons d' name =>
          have htail : name ++ [c] = cs ++ '<' :: a := (List.cons.inj hcs).2
          have hmem : '<' ∈ name ++ [c] := by simp [htail]
          rcases List.mem_append.1 hmem with hmem | hmem
          · have hlower := List.mem_map_of_mem (f := Char.toLower) hmem
            rw [(List.cons.inj hname).2] at hlower
            exact absurd hlower (by decide)
          · rw [← List.mem_singleton.1 hmem] at hc
            exact absurd hc (by decide)
    · exact ⟨name, c, a, by simpa using hcs, hname, hc⟩
  · rintro ⟨name, c, more, rfl, hname, hc⟩
    exact ⟨name, c, more ++ '<' :: rest, by simp, hname, hc⟩

theorem toList_endTag_style : (endTag "style").toList = '<' :: "/style>".toList := by
  simp [endTag]

/-- The text of a style without end tags is read up to the end tag of its element. -/
theorem splitStyle_append {css : List Char} (h : ¬ HoldsStyleEnd css) (rest : List Char) :
    splitStyle (css ++ ((endTag "style").toList ++ rest)) =
      (css, (endTag "style").toList ++ rest) := by
  have hstop : startsStyleEnd ('<' :: ("/style>".toList ++ rest)) = true := by simp [startsStyleEnd]
  rw [toList_endTag_style, List.cons_append]
  induction css with
  | nil => rw [List.nil_append, splitStyle, if_pos hstop]
  | cons c css ih =>
    rw [holdsStyleEnd_cons, not_or] at h
    have hstart : ¬ startsStyleEnd (c :: (css ++ '<' :: ("/style>".toList ++ rest))) = true :=
      mt (startsStyleEnd_append (List.cons_ne_nil c css)).1 h.1
    rw [List.cons_append, splitStyle, if_neg hstart, ih h.2]

/-- Of any other only a part is read. -/
theorem length_splitStyle_lt {css : List Char} (h : HoldsStyleEnd css) (rest : List Char) :
    (splitStyle (css ++ ((endTag "style").toList ++ rest))).1.length < css.length := by
  rw [toList_endTag_style, List.cons_append]
  induction css with
  | nil => exact absurd h not_holdsStyleEnd_nil
  | cons c css ih =>
    rw [List.cons_append, splitStyle]
    split
    · exact Nat.zero_lt_succ _
    · rename_i hstart
      rcases holdsStyleEnd_cons.1 h with hstyle | hrest
      · exact absurd ((startsStyleEnd_append (List.cons_ne_nil c css)).2 hstyle) hstart
      · exact Nat.succ_lt_succ (ih hrest)

end PageBuilder.Markup
