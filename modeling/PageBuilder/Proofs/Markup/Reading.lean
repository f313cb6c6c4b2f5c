import PageBuilder.Proofs.Markup.Tags

/-!
# Reading elements

`Readable` nodes are those whose compact markup tells all that is in them: names are names, no two
texts stand side by side, void elements hold nothing, and no style ends early. Their markup is read
back (`Readable.reads`), with whatever comes after it left over.

Reading is given as many steps as there are characters. Each step down or to the right reads at
least one of them, so the steps never run out.
-/

namespace PageBuilder.Markup

open Dom Fragment

variable {tag : String} {attributes : List (String × String)} {selectedIndex : Option ℕ}
  {children rs : List Rose} {r : Rose} {rest : List Char} {k : ℕ}

/-! ## Start tags -/

/-- Tags of elements whose content is made of nodes. -/
def IsContainer (tag : String) : Prop :=
  IsName tag ∧ voidTags.contains tag = false ∧ rawTags.contains tag = false

instance (tag : String) : Decidable (IsContainer tag) := inferInstanceAs (Decidable (_ ∧ _ ∧ _))

theorem IsContainer.ne_style (h : IsContainer tag) : tag ≠ "style" := by
  rintro rfl
  exact absurd h.2.2 (by decide)

/-- The attributes as they are written in the start tag of a selected element or of any other. -/
def markedAttributes (attributes : List (String × String)) (selected : Bool) :
    List (String × String) :=
  if selected && !(attributes.map (·.1)).contains "selected" then attributes ++ [("selected", "")]
  else attributes

/-- What closes the start tag of an element. -/
def closing (tag : String) : List Char := if voidTags.contains tag then [' ', '/', '>'] else ['>']

theorem closing_of_not_void (h : voidTags.contains tag = false) : closing tag = ['>'] := by
  rw [closing, h]
  rfl

theorem toList_openTag (tag : String) (attributes : List (String × String)) (selected : Bool) :
    (openTag tag attributes selected).toList =
      '<' :: (tag.toList ++
        (attributesText (markedAttributes attributes selected) ++ closing tag)) := by
  have hclosing : (if voidTags.contains tag then " />" else ">" : String).toList = closing tag := by
    rw [closing]
    split <;> rfl
  rw [openTag, markedAttributes, String.toList_append, String.toList_append, hclosing]
  cases hmark : selected && !(attributes.map (·.1)).contains "selected" <;>
    simp [attributesText, List.flatMap_map, toList_attributeText, valueText]

theorem isName_markedAttributes (hnames : ∀ a ∈ attributes, IsName a.1) (selected : Bool) :
    ∀ a ∈ markedAttributes attributes selected, IsName a.1 := by
  rw [markedAttributes]
  split
  · intro a ha
    rcases List.mem_append.1 ha with ha | ha
    · exact hnames a ha
    · rw [List.mem_singleton.1 ha]
      decide
  · exact hnames

theorem length_le_length_attributesText (attributes : List (String × String)) :
    attributes.length ≤ (attributesText attributes).length := by
  induction attributes with
  | nil => exact Nat.le_refl 0
  | cons a attributes ih =>
    rw [attributesText_cons]
    simp only [List.length_cons, List.length_append]
    omega

theorem readElement?_void (htag : IsName tag) (hnames : ∀ a ∈ attributes, IsName a.1)
    (hvoid : voidTags.contains tag = true) (hk : attributes.length < k) (rest : List Char) :
    readElement? (k + 1) (tag.toList ++ (attributesText attributes ++ ' ' :: '/' :: '>' :: rest)) =
      some (.element tag attributes [], rest) := by
  have hcloses : Closes (' ' :: '/' :: '>' :: rest) := ⟨_, .inr rfl⟩
  have hstop := stopsName_attributesText attributes hcloses
  rw [readElement?, takeWhile_name htag.2 hstop, dropWhile_name htag.2 hstop,
    readAttributes?_append hnames hcloses hk, String.ofList_toList]
  exact if_pos hvoid

theorem readElement?_style (hnames : ∀ a ∈ attributes, IsName a.1) (hk : attributes.length < k)
    (rest : List Char) :
    readElement? (k + 1) ("style".toList ++ (attributesText attributes ++ '>' :: rest)) =
      (readEndTag? "style" (splitStyle rest).2).map fun after =>
        (.element "style" attributes (ofText (String.ofList (splitStyle rest).1)), after) := by
  have htag : IsName "style" := by decide
  have hcloses : Closes ('>' :: rest) := ⟨_, .inl rfl⟩
  have hstop := stopsName_attributesText attributes hcloses
  rw [readElement?, takeWhile_name htag.2 hstop, dropWhile_name htag.2 hstop,
    readAttributes?_append hnames hcloses hk, String.ofList_toList]
  simp

theorem readElement?_content (htag : IsContainer tag) (hnames : ∀ a ∈ attributes, IsName a.1)
    (hk : attributes.length < k) (rest : List Char) :
    readElement? (k + 1) (tag.toList ++ (attributesText attributes ++ '>' :: rest)) =
      (readContent? k rest).bind fun (content, after) =>
        (readEndTag? tag after).map fun after => (.element tag attributes content, after) := by
  have hcloses : Closes ('>' :: rest) := ⟨_, .inl rfl⟩
  have hstop := stopsName_attributesText attributes hcloses
  rw [readElement?, takeWhile_name htag.1.2 hstop, dropWhile_name htag.1.2 hstop,
    readAttributes?_append hnames hcloses hk, String.ofList_toList]
  simp only [htag.ne_style, if_false]
  cases readContent? k rest <;> rfl

/-! ## Content -/

/-- What can come after content: an end tag, or nothing. -/
def EndsContent (cs : List Char) : Prop := cs = [] ∨ ∃ rest, cs = '<' :: '/' :: rest

theorem readContent?_end (h : EndsContent rest) (k : ℕ) :
    readContent? (k + 1) rest = some ([], rest) := by
  obtain rfl | ⟨more, rfl⟩ := h
  · rfl
  · rfl

theorem readContent?_element {c : Char} (hc : c ≠ '/') (rest : List Char) (k : ℕ) :
    readContent? (k + 1) ('<' :: c :: rest) =
      (readElement? k (c :: rest)).bind fun (f, after) =>
        (readContent? k after).map fun (more, after) => (f :: more, after) := by
  rw [readContent?]
  · cases readElement? k (c :: rest) <;> rfl
  · intro more heq
    exact hc (List.cons.inj heq).1

theorem readContent?_char {c : Char} (hc : c ≠ '<') (cs : List Char) (k : ℕ) :
    readContent? (k + 1) (c :: cs) =
      (readContent? k ((c :: cs).dropWhile (· != '<'))).map fun (more, rest) =>
        (.text (decodedText ((c :: cs).takeWhile (· != '<'))) :: more, rest) := by
  rw [readContent?]
  · simp
  · rintro more heq
    exact hc (List.cons.inj heq).1
  · rintro more heq
    exact hc (List.cons.inj heq).1

theorem readContent?_text {s : String} (hs : s ≠ "")
    (hrest : rest = [] ∨ ∃ more, rest = '<' :: more) (k : ℕ) :
    readContent? (k + 1) ((escapeText s).toList ++ rest) =
      (readContent? k rest).map fun (more, after) => (.text s :: more, after) := by
  have hplain : ∀ c ∈ (escapeText s).toList, (c != '<') = true := fun c hc =>
    bne_iff_ne.2 fun heq => not_mem_escapeText s (heq ▸ hc)
  have htake : ((escapeText s).toList ++ rest).takeWhile (· != '<') = (escapeText s).toList := by
    rw [List.takeWhile_append_of_pos hplain]
    obtain rfl | ⟨more, rfl⟩ := hrest <;> simp
  have hdrop : ((escapeText s).toList ++ rest).dropWhile (· != '<') = rest := by
    rw [List.dropWhile_append_of_pos hplain]
    obtain rfl | ⟨more, rfl⟩ := hrest <;> simp
  obtain ⟨c, cs, hcs⟩ : ∃ c cs, (escapeText s).toList = c :: cs := by
    refine List.exists_cons_of_ne_nil fun hnil => hs ?_
    rw [← decodedText_escapeText s, hnil, decodedText, decodeWith, String.ofList_nil]
  have hc : c ≠ '<' := bne_iff_ne.1 (hplain c (by rw [hcs]; exact List.mem_cons_self))
  rw [hcs] at htake hdrop ⊢
  rw [List.cons_append] at htake hdrop ⊢
  rw [readContent?_char hc, htake, hdrop, ← hcs, decodedText_escapeText]

/-! ## What is written of a node -/

/-- What is written of a node that is selected or not. -/
def ofMarked (selected : Bool) (r : Rose) : List Fragment :=
  if selected then (ofRose r).map (withMark "selected") else ofRose r

theorem ofMarked_element (selected : Bool) (tag : String) (attributes : List (String × String))
    (selectedIndex : Option ℕ) (children : List Rose) :
    ofMarked selected (.element tag attributes selectedIndex children) =
      [.element tag (markedAttributes attributes selected)
        (markOption selectedIndex (ofRoses children))] := by
  cases selected with
  | false => simp [ofMarked, ofRose, markedAttributes]
  | true =>
    rw [ofMarked, if_pos rfl, ofRose, List.map_singleton, withMark, markedAttributes]
    by_cases hcarries : "selected" ∈ attributes.map (·.1)
    · simp [hcarries]
    · simp [hcarries]

theorem ofMarked_text (selected : Bool) (s : String) : ofMarked selected (.text s) = ofText s := by
  rw [ofMarked, ofRose, ofText]
  split <;> split <;> rfl

theorem markOption_nil (mark : Option ℕ) : markOption mark [] = [] := by
  cases mark <;> rfl

theorem markOption_none (fs : List Fragment) : markOption none fs = fs := by
  cases fs <;> rfl

theorem markOption_ofText (mark : Option ℕ) (s : String) (fs : List Fragment) :
    markOption mark (ofText s ++ fs) = ofText s ++ markOption mark fs := by
  rw [ofText]
  split
  · rfl
  · cases mark with
    | none => rw [markOption_none, markOption_none]
    | some k => rfl

/-- The option that gets the mark is the same among nodes and among what is written of them. -/
theorem markOption_ofRoses_cons (hr : ∀ cs, r ≠ .document cs) (mark : Option ℕ) (rs : List Rose) :
    markOption mark (ofRoses (r :: rs)) =
      ofMarked (r.isOption && mark == some 0) r ++
        markOption (Rose.markAfter mark r) (ofRoses rs) := by
  cases r with
  | document cs => exact absurd rfl (hr cs)
  | text s =>
    rw [ofRoses, ofRose, markOption_ofText]
    rfl
  | element tag attributes selectedIndex children =>
    rw [ofRoses, ofRose]
    cases mark with
    | none =>
      rw [markOption_none, Rose.markAfter_none, markOption_none]
      simp [ofMarked, ofRose]
    | some k =>
      by_cases htag : tag = "option"
      · subst htag
        cases k with
        | zero =>
          simp [markOption, markOption_none, ofMarked, ofRose, Rose.isOption, Rose.markAfter]
        | succ k => simp [markOption, ofMarked, ofRose, Rose.isOption, Rose.markAfter]
      · simp [markOption, ofMarked, ofRose, Rose.isOption, Rose.markAfter, htag]

/-! ## Markup that is read back -/

/-- Nodes of which no two texts stand side by side, where they would be read as one. -/
def Separated (rs : List Rose) : Prop :=
  rs.IsChain fun a b => a.isElement = true ∨ b.isElement = true

/-- Nodes whose markup tells all that is written of them. -/
inductive Readable : Rose → Prop where
  | text (s : String) : Readable (.text s)
  | void {tag : String} {attributes : List (String × String)} {selectedIndex : Option ℕ}
      (hname : IsName tag) (hvoid : voidTags.contains tag = true)
      (hnames : ∀ a ∈ attributes, IsName a.1) :
      Readable (.element tag attributes selectedIndex [])
  | style {attributes : List (String × String)} {selectedIndex : Option ℕ} {css : String}
      (hnames : ∀ a ∈ attributes, IsName a.1) (hcss : ¬ HoldsStyleEnd css.toList) :
      Readable (.element "style" attributes selectedIndex [.text css])
  | element {tag : String} {attributes : List (String × String)} {selectedIndex : Option ℕ}
      {children : List Rose} (htag : IsContainer tag) (hnames : ∀ a ∈ attributes, IsName a.1)
      (hchildren : ∀ c ∈ children, Readable c) (hseparated : Separated children) :
      Readable (.element tag attributes selectedIndex children)

/-- Whether the markup of an element is read back, with what comes after it left over. -/
def Reads (r : Rose) : Prop :=
  ∀ depth selected k rest, (r.render .compact depth selected).length ≤ k →
    ∃ c cs f, (r.render .compact depth selected).toList = '<' :: c :: cs ∧ c ≠ '/' ∧
      ofMarked selected r = [f] ∧ readElement? k (c :: (cs ++ rest)) = some (f, rest)

/-- What comes after the start tag of an element. -/
def afterStart (depth : ℕ) (tag : String) (selectedIndex : Option ℕ) (children : List Rose) :
    String :=
  if voidTags.contains tag then ""
  else
    (if rawTags.contains tag then String.join (children.map Rose.ownText)
      else Rose.renderAll .compact (depth + 1) selectedIndex children) ++ endTag tag

theorem render_element (depth : ℕ) (selected : Bool) (tag : String)
    (attributes : List (String × String)) (selectedIndex : Option ℕ) (children : List Rose) :
    (Rose.element tag attributes selectedIndex children).render .compact depth selected =
      openTag tag attributes selected ++ afterStart depth tag selectedIndex children := by
  simp only [Rose.render, afterStart, Layout.lineBreak, ite_self, String.empty_append,
    String.append_empty]

/-- After a text comes an opening bracket or nothing. -/
theorem starts_renderAll {s : String} (hseparated : Separated (.text s :: rs))
    (hrest : EndsContent rest) (depth : ℕ) (mark : Option ℕ) :
    (Rose.renderAll .compact depth mark rs).toList ++ rest = [] ∨
      ∃ more, (Rose.renderAll .compact depth mark rs).toList ++ rest = '<' :: more := by
  cases rs with
  | nil =>
    rw [Rose.renderAll]
    exact hrest.imp id fun ⟨more, h⟩ => ⟨_, h⟩
  | cons r rs =>
    have hr : r.isElement = true :=
      (List.isChain_cons_cons.1 hseparated).1.resolve_left Bool.false_ne_true
    cases r with
    | document | text => cases hr
    | element tag attributes selectedIndex children =>
      rw [Rose.renderAll, render_element, String.append_assoc, String.toList_append,
        toList_openTag]
      exact .inr ⟨_, rfl⟩

/-- **Content is read back** if the elements in it are. -/
theorem readContent?_renderAll (depth : ℕ)
    (hreads : ∀ r ∈ rs, (∃ s, r = .text s) ∨ r.isElement = true ∧ Reads r)
    (hseparated : Separated rs) (hrest : EndsContent rest) (mark : Option ℕ)
    (hk : (Rose.renderAll .compact depth mark rs).length < k) :
    readContent? k ((Rose.renderAll .compact depth mark rs).toList ++ rest) =
      some (markOption mark (ofRoses rs), rest) := by
  induction rs generalizing mark k with
  | nil =>
    obtain ⟨k, rfl⟩ := Nat.exists_eq_add_one_of_ne_zero (Nat.ne_of_gt (Nat.zero_lt_of_lt hk))
    rw [Rose.renderAll]
    rw [ofRoses, markOption_nil]
    exact readContent?_end hrest k
  | cons r rs ih =>
    have hmore := fun {k} mark => ih (k := k) (fun c hc => hreads c (List.mem_cons_of_mem r hc))
      hseparated.tail mark
    rw [Rose.renderAll, String.length_append] at hk
    rw [Rose.renderAll, String.toList_append, List.append_assoc]
    rcases hreads r List.mem_cons_self with ⟨s, rfl⟩ | ⟨helement, hr⟩
    · rw [markOption_ofRoses_cons (by simp), ofMarked_text]
      rw [Rose.render] at hk ⊢
      by_cases hs : s = ""
      · subst hs
        exact hmore _ (Nat.lt_of_le_of_lt (Nat.le_add_left _ _) hk)
      · obtain ⟨k, rfl⟩ := Nat.exists_eq_add_one_of_ne_zero (Nat.ne_of_gt (Nat.zero_lt_of_lt hk))
        have hpos : 0 < (escapeText s).length := Nat.lt_of_lt_of_le
          (Nat.pos_of_ne_zero (mt String.length_eq_zero_iff.1 hs)) (length_le_length_escapeText s)
        have hnext := hmore (k := k) (Rose.markAfter mark (.text s)) (by omega)
        rw [readContent?_text hs (starts_renderAll hseparated hrest _ _), hnext, ofText, if_neg hs]
        rfl
    · rw [markOption_ofRoses_cons (by rintro cs rfl; cases helement)]
      obtain ⟨c, cs, f, hchars, hc, hf, hread⟩ := hr depth (r.isOption && mark == some 0) (k - 1)
        ((Rose.renderAll .compact depth (Rose.markAfter mark r) rs).toList ++ rest) (by omega)
      have hpos : 0 < (r.render .compact depth (r.isOption && mark == some 0)).length := by
        rw [← String.length_toList, hchars]
        exact Nat.zero_lt_succ _
      obtain ⟨k, rfl⟩ := Nat.exists_eq_add_one_of_ne_zero (Nat.ne_of_gt (Nat.zero_lt_of_lt hk))
      rw [hchars, hf, List.cons_append, List.cons_append, readContent?_element hc]
      rw [Nat.add_sub_cancel] at hread
      have hnext := hmore (k := k) (Rose.markAfter mark r) (by omega)
      simp only [hread, Option.bind_some, hnext]
      rfl

/-- An element is read back if it is read back from its name on, given more steps than it has
attributes and characters after its start tag. -/
theorem reads_element (hname : IsName tag)
    (hread : ∀ depth selected k rest,
      (markedAttributes attributes selected).length < k →
      (afterStart depth tag selectedIndex children).length < k →
      readElement? (k + 1) (tag.toList ++ (attributesText (markedAttributes attributes selected) ++
          (closing tag ++ ((afterStart depth tag selectedIndex children).toList ++ rest)))) =
        some (.element tag (markedAttributes attributes selected)
          (markOption selectedIndex (ofRoses children)), rest)) :
    Reads (.element tag attributes selectedIndex children) := by
  intro depth selected k rest hk
  obtain ⟨c, cs, htag⟩ := List.exists_cons_of_ne_nil (mt String.toList_eq_nil_iff.1 hname.1)
  have hc : c ≠ '/' := by
    rintro rfl
    exact absurd (hname.2 '/' (by rw [htag]; exact List.mem_cons_self)) (by decide)
  have hchars : ((Rose.element tag attributes selectedIndex children).render .compact depth
      selected).toList = '<' :: (tag.toList ++
        (attributesText (markedAttributes attributes selected) ++
          (closing tag ++ (afterStart depth tag selectedIndex children).toList))) := by
    rw [render_element, String.toList_append, toList_openTag]
    simp only [List.cons_append, List.append_assoc]
  have hclosing : 0 < (closing tag).length := by
    rw [closing]
    split <;> exact Nat.zero_lt_succ _
  have hlength := congrArg List.length hchars
  have hattributes := length_le_length_attributesText (markedAttributes attributes selected)
  rw [htag] at hlength
  simp only [String.length_toList, List.length_append, List.length_cons] at hlength
  obtain ⟨k, rfl⟩ := Nat.exists_eq_add_one_of_ne_zero (n := k) (by omega)
  rw [htag, List.cons_append] at hchars
  refine ⟨c, _, _, hchars, hc, ofMarked_element .., ?_⟩
  have hfrom := hread depth selected k rest (by omega) (by omega)
  rw [htag] at hfrom
  simpa only [List.cons_append, List.append_assoc] using hfrom

/-- **The markup of a readable element is read back.** -/
theorem Readable.reads (h : Readable r) (hr : r.isElement = true) : Reads r := by
  induction h with
  | text s => cases hr
  | @void tag attributes selectedIndex hname hvoid hnames =>
    refine reads_element hname fun depth selected k rest hattributes _ => ?_
    rw [closing, if_pos hvoid, afterStart, if_pos hvoid, ofRoses, markOption_nil]
    exact readElement?_void hname (isName_markedAttributes hnames selected) hvoid hattributes rest
  | @style attributes selectedIndex css hnames hcss =>
    refine reads_element (by decide) fun depth selected k rest hattributes _ => ?_
    have hbody : (afterStart depth "style" selectedIndex [.text css]).toList ++ rest =
        css.toList ++ ((endTag "style").toList ++ rest) := by
      simp [afterStart, voidTags, rawTags, Rose.ownText]
    have hcontent : markOption selectedIndex (ofRoses [.text css]) = ofText css := by
      rw [ofRoses, ofRose, ofRoses, markOption_ofText, markOption_nil, List.append_nil]
    rw [hbody, closing_of_not_void (by decide), List.singleton_append,
      readElement?_style (isName_markedAttributes hnames selected) hattributes,
      splitStyle_append hcss, readEndTag?_append, String.ofList_toList, hcontent]
    rfl
  | @element tag attributes selectedIndex children htag hnames hchildren hseparated ih =>
    refine reads_element htag.1 fun depth selected k rest hattributes hafter => ?_
    have hbody : afterStart depth tag selectedIndex children =
        Rose.renderAll .compact (depth + 1) selectedIndex children ++ endTag tag := by
      rw [afterStart, htag.2.1, htag.2.2]
      rfl
    rw [hbody, String.length_append] at hafter
    have hends : EndsContent ((endTag tag).toList ++ rest) :=
      .inr ⟨tag.toList ++ '>' :: rest, by simp [endTag]⟩
    have hcontent := readContent?_renderAll (k := k) (depth + 1) (fun c hc => ?_) hseparated
      hends selectedIndex (by omega)
    · rw [hbody, closing_of_not_void htag.2.1, String.toList_append, List.append_assoc,
        List.singleton_append,
        readElement?_content htag (isName_markedAttributes hnames selected) hattributes, hcontent]
      simp only [Option.bind_some, readEndTag?_append, Option.map_some]
    · have hc' := hchildren c hc
      cases c with
      | document => cases hc'
      | text s => exact .inl ⟨s, rfl⟩
      | element => exact .inr ⟨rfl, ih _ hc rfl⟩

end PageBuilder.Markup
