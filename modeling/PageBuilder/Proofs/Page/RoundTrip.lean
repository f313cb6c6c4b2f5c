import PageBuilder.Proofs.Page.Composition
import PageBuilder.Proofs.Page.Parts

/-!
# Reading pages back

A compact page is read back as it was compiled, unless the text of a style ends the style early
(`readPage?_compileToString_iff`). Nothing else that a description holds can get in the way: every
other element is readable, so the page is as soon as its styles are. A style that ends early is read
as a shorter one, if the page can be read at all.
-/

namespace PageBuilder

open Dom Markup Markup.Fragment

variable {settings : Settings} {xs : List Descriptor} {rest : List Char} {k : ℕ}

/-! ## Styles -/

/-- A style with its text. -/
def styleRose (css : String) : Rose := .element "style" [] none [.text css]

/-- The CSS text of a descriptor that is a style. -/
def Descriptor.css? : Descriptor → Option String
  | directive s => styleText? s
  | _ => none

theorem ofDirective_of_styleText? {s css : String} (h : styleText? s = some css) :
    Part.ofDirective s = ⟨.head, "style", [.ok [.addText css]]⟩ := by
  have hbreak : ¬ (s = "br" ∨ s = "hr") := by
    have hbr : styleText? "br" = none := by decide
    have hhr : styleText? "hr" = none := by decide
    rintro (rfl | rfl)
    · cases hbr.symm.trans h
    · cases hhr.symm.trans h
  rw [Part.ofDirective, if_neg hbreak, h]

/-- Descriptors that are no style show nothing in the head. -/
theorem shown_head (settings : Settings) (x : Descriptor) :
    x.shown settings .head = x.css?.toList.map styleRose := by
  cases x with
  | invalid value => rfl
  | element r =>
    rw [Descriptor.shown, Descriptor.part?]
    cases r.kind? <;> rfl
  | directive s =>
    rw [Descriptor.css?]
    cases hcss : styleText? s with
    | some css =>
      show (Part.ofDirective s).shown .head = _
      rw [ofDirective_of_styleText? hcss]
      rfl
    | none =>
      show (Part.ofDirective s).shown .head = _
      rw [Part.ofDirective, hcss]
      split <;> rfl

/-- What a list gives, item by item, is what its items give that give anything. -/
theorem flatMap_eq_map_filterMap {α β γ : Type*} {f : α → List β} {g : α → Option γ} {h : γ → β}
    (hfg : ∀ x, f x = (g x).toList.map h) (l : List α) : l.flatMap f = (l.filterMap g).map h := by
  rw [List.filterMap_eq_flatMap_toList, List.map_flatMap]
  exact congrArg (l.flatMap ·) (funext hfg)

/-- The styles in the head of a page. -/
theorem flatMap_shown_head (settings : Settings) (xs : List Descriptor) :
    xs.flatMap (Descriptor.shown settings .head) =
      (xs.filterMap Descriptor.css?).map styleRose :=
  flatMap_eq_map_filterMap (shown_head settings) xs

/-! ## Everything else -/

theorem isElement_rose (part : Part) : part.rose.isElement = true := by
  have hQ : ∀ (step : Step) (r : Rose), True → r.isElement = true →
      (step.apply r).isElement = true := fun step r _ hr => (step.isElement_apply r).trans hr
  exact build_induction (I := fun r => r.isElement = true) hQ
    (fun stage _ steps _ step _ => trivial) rfl

/-- What stands in the container can be read back. -/
theorem readable_of_mem_shown_root {x : Descriptor} {r : Rose} (hr : r ∈ x.shown settings .root) :
    Readable r := by
  rw [Descriptor.shown] at hr
  cases x with
  | invalid value => cases hr
  | element record =>
    rw [Descriptor.part?] at hr
    cases hkind : record.kind? with
    | none => rw [hkind] at hr; cases hr
    | some kind =>
      rw [hkind] at hr
      obtain rfl := List.mem_singleton.1 hr
      exact readable_ofRecord settings kind record
  | directive s =>
    replace hr : r ∈ (Part.ofDirective s).shown .root := hr
    rw [Part.ofDirective] at hr
    split at hr
    · rename_i hbreak
      obtain rfl := List.mem_singleton.1 hr
      rcases hbreak with rfl | rfl <;> exact .void (by decide) (by decide) (by simp)
    · split at hr
      · cases hr
      · obtain rfl := List.mem_singleton.1 hr
        show Readable (.element "p" [] none [.text s])
        exact .element (by decide) (by simp)
          (AtMostText.readable (.inr ⟨s, rfl⟩)).1 (.singleton _)

/-- What a descriptor shows is its part, as far as it can be built. -/
theorem exists_part?_of_mem_shown {place : Place} {x : Descriptor} {r : Rose}
    (hr : r ∈ x.shown settings place) : ∃ part, x.part? settings = some part ∧ r = part.rose := by
  rw [Descriptor.shown] at hr
  cases hpart : x.part? settings with
  | none => rw [hpart] at hr; cases hr
  | some part =>
    rw [hpart] at hr
    replace hr : r ∈ part.shown place := hr
    rw [Part.shown] at hr
    split at hr
    · exact ⟨part, rfl, List.mem_singleton.1 hr⟩
    · cases hr

theorem isElement_of_mem_shown {place : Place} {x : Descriptor} {r : Rose}
    (hr : r ∈ x.shown settings place) : r.isElement = true := by
  obtain ⟨part, -, rfl⟩ := exists_part?_of_mem_shown hr
  exact isElement_rose part

/-- The elements that descriptors show are separated. -/
theorem separated_flatMap_shown (settings : Settings) (place : Place) (xs : List Descriptor) :
    Separated (xs.flatMap (Descriptor.shown settings place)) :=
  separated_of_isElement fun r hr => by
    obtain ⟨x, -, hr⟩ := List.mem_flatMap.1 hr
    exact isElement_of_mem_shown hr

theorem readable_container (settings : Settings) (xs : List Descriptor) :
    Readable (.element "div" [("id", settings.rootId)] none
      (xs.flatMap (Descriptor.shown settings .root))) := by
  refine .element (by decide) ?_ (fun r hr => ?_)
    (separated_flatMap_shown settings .root xs)
  · have hid : IsName "id" := by decide
    intro a ha
    rw [List.mem_singleton.1 ha]
    exact hid
  · obtain ⟨x, -, hr⟩ := List.mem_flatMap.1 hr
    exact readable_of_mem_shown_root hr

/-- The page that descriptors show. -/
def shownPage (settings : Settings) (xs : List Descriptor) : Rose :=
  pageRose settings fun place => xs.flatMap (Descriptor.shown settings place)

/-- A page can be read back if no style ends early. -/
theorem readable_shownPage (h : ∀ css ∈ xs.filterMap Descriptor.css?, ¬ HoldsStyleEnd css.toList) :
    Readable (shownPage settings xs) := by
  have hstyles : ∀ r ∈ xs.flatMap (Descriptor.shown settings .head), Readable r := by
    rw [flatMap_shown_head]
    intro r hr
    obtain ⟨css, hcss, rfl⟩ := List.mem_map.1 hr
    exact .style (by simp) (h css hcss)
  refine .element (by decide) (by simp) ?_
    (separated_of_isElement fun r hr => ?_)
  · refine List.forall_mem_cons.2 ⟨?_, List.forall_mem_cons.2 ⟨?_, by simp⟩⟩
    · exact .element (by decide) (by simp) hstyles
        (separated_flatMap_shown settings .head xs)
    · refine .element (by decide) (by simp) (fun r hr => ?_) (.singleton _)
      rw [List.mem_singleton.1 hr]
      exact readable_container settings xs
  · rcases List.mem_cons.1 hr with rfl | hr
    · rfl
    · rw [List.mem_singleton.1 hr]
      rfl

/-! ## Styles that end early -/

theorem toList_render_styleRose (depth : ℕ) (css : String) :
    ((styleRose css).render .compact depth false).toList =
      '<' :: ("style".toList ++ (attributesText [] ++
        '>' :: (css.toList ++ (endTag "style").toList))) := by
  rw [styleRose, render_element, String.toList_append, toList_openTag,
    closing_of_not_void (by decide)]
  simp [afterStart, voidTags, rawTags, Rose.ownText, markedAttributes]

/-- A style is read up to the first end tag, and then what comes after it. -/
theorem readContent?_style (css tail : List Char) (k : ℕ) :
    readContent? (k + 3) ('<' :: ("style".toList ++ (attributesText [] ++ '>' ::
        (css ++ ((endTag "style").toList ++ tail))))) =
      (readEndTag? "style" (splitStyle (css ++ ((endTag "style").toList ++ tail))).2).bind
        fun after => (readContent? (k + 2) after).map fun (more, after) =>
          (.element "style" [] (ofText (String.ofList
            (splitStyle (css ++ ((endTag "style").toList ++ tail))).1)) :: more, after) := by
  obtain ⟨name, hname⟩ : ∃ name, "style".toList = 's' :: name := ⟨"tyle".toList, by decide⟩
  have helement := @readElement?_style [] (k + 1) (by simp) (Nat.zero_lt_succ _)
    (css ++ ((endTag "style").toList ++ tail))
  rw [hname, List.cons_append] at helement ⊢
  rw [readContent?_element (by decide), helement, Option.bind_map]
  rfl

theorem ofText_ne {s s' : String} (h : s ≠ s') : ofText s ≠ ofText s' := by
  rw [ofText, ofText]
  split <;> split <;> simp_all

/-- Styles of which one ends early are not read as they are. -/
theorem readContent?_styles_ne (depth : ℕ) {styles : List String}
    (h : ∃ css ∈ styles, HoldsStyleEnd css.toList)
    (hk : (Rose.renderAll .compact depth none (styles.map styleRose)).length < k)
    {content : List Fragment} {after : List Char}
    (hread : readContent? k
      ((Rose.renderAll .compact depth none (styles.map styleRose)).toList ++ rest) =
        some (content, after)) :
    content ≠ ofRoses (styles.map styleRose) := by
  induction styles generalizing k content with
  | nil =>
    obtain ⟨css, hcss, -⟩ := h
    cases hcss
  | cons css styles ih =>
    have hrender : Rose.renderAll .compact depth none ((css :: styles).map styleRose) =
        (styleRose css).render .compact depth false ++
          Rose.renderAll .compact depth none (styles.map styleRose) := by
      rw [List.map_cons, Rose.renderAll, Rose.markAfter_none]
      rfl
    have hrose : ofRoses ((css :: styles).map styleRose) =
        .element "style" [] (ofText css) :: ofRoses (styles.map styleRose) := by
      rw [List.map_cons, ofRoses, styleRose, ofRose]
      simp [markOption_none, ofRoses, ofRose]
    have hlength : 3 ≤ ((styleRose css).render .compact depth false).length := by
      rw [← String.length_toList, toList_render_styleRose]
      simp only [List.length_cons, List.length_append, toList_endTag_style]
      omega
    rw [hrender, String.length_append] at hk
    obtain ⟨k, rfl⟩ := Nat.exists_eq_add_of_le' (show 3 ≤ k by omega)
    rw [hrender, String.toList_append, toList_render_styleRose] at hread
    simp only [List.cons_append, List.append_assoc] at hread
    rw [readContent?_style, Option.bind_eq_some_iff] at hread
    obtain ⟨tail, hend, hread⟩ := hread
    obtain ⟨⟨more, after'⟩, hmore, hcontent⟩ := Option.map_eq_some_iff.1 hread
    obtain ⟨rfl, rfl⟩ := Prod.mk.inj hcontent
    rw [hrose]
    intro heq
    obtain ⟨hstyle, hrest⟩ := List.cons.inj heq
    by_cases hcss : HoldsStyleEnd css.toList
    · -- the style itself is read as a shorter one
      refine ofText_ne ?_ (Fragment.element.inj hstyle).2.2
      intro hsame
      have hshorter := length_splitStyle_lt hcss
        ((Rose.renderAll .compact depth none (styles.map styleRose)).toList ++ rest)
      have hchars := congrArg String.toList hsame
      rw [String.toList_ofList] at hchars
      rw [hchars] at hshorter
      exact Nat.lt_irrefl _ hshorter
    · rw [splitStyle_append hcss, readEndTag?_append] at hend
      cases hend
      obtain ⟨bad, hmem, hbad⟩ := h
      rcases List.mem_cons.1 hmem with rfl | hmem
      · exact hcss hbad
      · exact ih ⟨bad, hmem, hbad⟩ (by omega) hmore hrest

/-! ## Elements around them -/

/-- The markup of an element without attributes that is neither void nor raw. -/
theorem toList_render_plain (depth : ℕ) {tag : String} (htag : IsContainer tag)
    (children : List Rose) :
    ((Rose.element tag [] none children).render .compact depth false).toList =
      '<' :: (tag.toList ++ '>' :: ((Rose.renderAll .compact (depth + 1) none children).toList ++
        (endTag tag).toList)) := by
  rw [render_element, String.toList_append, toList_openTag, closing_of_not_void htag.2.1,
    afterStart, htag.2.1, htag.2.2]
  simp [markedAttributes, attributesText]

theorem ofRose_plain (tag : String) (children : List Rose) :
    ofRose (.element tag [] none children) = [.element tag [] (ofRoses children)] := by
  rw [ofRose, markOption_none]

/-- An element is misread if its content is. -/
theorem readElement?_ne {tag : String} (htag : IsContainer tag) {expected : List Fragment}
    {cs : List Char}
    (hne : ∀ content after, readContent? (k + 1) cs = some (content, after) → content ≠ expected)
    {f : Fragment} {after : List Char}
    (hread : readElement? (k + 2) (tag.toList ++ '>' :: cs) = some (f, after)) :
    f ≠ .element tag [] expected := by
  have hcontent := @readElement?_content tag [] (k + 1) htag (by simp) (Nat.zero_lt_succ _) cs
  replace hread := hcontent.symm.trans hread
  obtain ⟨⟨content, after'⟩, hc, hread⟩ := Option.bind_eq_some_iff.1 hread
  obtain ⟨_, -, hf⟩ := Option.map_eq_some_iff.1 hread
  obtain ⟨rfl, -⟩ := Prod.mk.inj hf
  intro heq
  exact hne content after' hc (Fragment.element.inj heq).2.2

/-- Content is misread if its first element is. -/
theorem readContent?_ne {c : Char} (hc : c ≠ '/') {expected : Fragment} {cs : List Char}
    (hne : ∀ f after, readElement? k (c :: cs) = some (f, after) → f ≠ expected)
    {content : List Fragment} {after : List Char}
    (hread : readContent? (k + 1) ('<' :: c :: cs) = some (content, after))
    (others : List Fragment) : content ≠ expected :: others := by
  rw [readContent?_element hc] at hread
  obtain ⟨⟨f, after'⟩, hf, hread⟩ := Option.bind_eq_some_iff.1 hread
  obtain ⟨_, -, hcontent⟩ := Option.map_eq_some_iff.1 hread
  obtain ⟨rfl, -⟩ := Prod.mk.inj hcontent
  intro heq
  exact hne f after' hf (List.cons.inj heq).1

/-! ## Pages -/

theorem compileToString_eq (hcompact : settings.pretty = false) (xs : List Descriptor) :
    compileToString settings xs = doctype ++ (shownPage settings xs).render .compact 0 false := by
  have hshows := compile_shows settings xs
  have hlayout : settings.layout = .compact := by rw [Settings.layout, hcompact]; rfl
  rw [compileToString, Page.html, Markup.page, hlayout, outer_eq hshows.wellFormed,
    hshows.view_html]
  exact String.append_empty

/-- A page is read as the element below its doctype line, to its end. -/
theorem readPage?_doctype {page : String} {cs : List Char} (hpage : page.toList = '<' :: cs)
    (f : Fragment) :
    readPage? (doctype ++ page) = some f ↔
      readElement? (doctype ++ page).length cs = some (f, []) := by
  have hchars : (doctype ++ page).toList = (doctype.toList ++ ['<']) ++ cs := by simp [hpage]
  rw [readPage?, ← String.length_toList, hchars]
  simp only [List.take_left', List.drop_left', if_true]
  cases readElement? ((doctype.toList ++ ['<']) ++ cs).length cs with
  | none => simp
  | some result =>
    obtain ⟨e, rest⟩ := result
    cases rest with
    | nil => simp
    | cons c rest => simp

theorem readPage?_of_readable {r : Rose} (h : Readable r) (hr : r.isElement = true) {f : Fragment}
    (hf : ofRose r = [f]) : readPage? (doctype ++ r.render .compact 0 false) = some f := by
  obtain ⟨c, cs, f', hchars, -, hf', hread⟩ := h.reads hr 0 false
    (doctype ++ r.render .compact 0 false).length [] (by rw [String.length_append]; omega)
  rw [readPage?_doctype hchars]
  rw [List.append_nil] at hread
  have hsame : [f'] = [f] := hf'.symm.trans hf
  rw [hread, (List.cons.inj hsame).1]

/-- A head with a style that ends early is misread, whatever comes after it. -/
theorem readContent?_head_ne (depth : ℕ) {styles : List String}
    (h : ∃ css ∈ styles, HoldsStyleEnd css.toList) (others : List Rose)
    (hk : (Rose.renderAll .compact depth none
      (.element "head" [] none (styles.map styleRose) :: others)).length ≤ k)
    {content : List Fragment} {after : List Char}
    (hread : readContent? (k + 1) ((Rose.renderAll .compact depth none
      (.element "head" [] none (styles.map styleRose) :: others)).toList ++ rest) =
        some (content, after)) :
    content ≠ ofRoses (.element "head" [] none (styles.map styleRose) :: others) := by
  obtain ⟨name, hname⟩ : ∃ name, "head".toList = 'h' :: name := ⟨"ead".toList, by decide⟩
  have hchars := toList_render_plain depth (show IsContainer "head" by decide)
    (styles.map styleRose)
  have hlength := congrArg List.length hchars
  rw [hname] at hlength
  simp only [String.length_toList, List.length_cons, List.length_append] at hlength
  rw [Rose.renderAll, Rose.markAfter_none, String.length_append] at hk
  replace hk : (Rose.render .compact depth false _).length + _ ≤ k := hk
  obtain ⟨k, rfl⟩ := Nat.exists_eq_add_of_le' (show 2 ≤ k by omega)
  have hrender : (Rose.renderAll .compact depth none
      (.element "head" [] none (styles.map styleRose) :: others)).toList ++ rest =
        '<' :: ("head".toList ++ '>' ::
          ((Rose.renderAll .compact (depth + 1) none (styles.map styleRose)).toList ++
            ((endTag "head").toList ++
              ((Rose.renderAll .compact depth none others).toList ++ rest)))) := by
    rw [Rose.renderAll, Rose.markAfter_none, String.toList_append]
    show (Rose.render .compact depth false _).toList ++ _ ++ rest = _
    rw [hchars]
    simp only [List.cons_append, List.append_assoc]
  rw [hrender, hname, List.cons_append] at hread
  rw [ofRoses, ofRose_plain, List.singleton_append]
  refine readContent?_ne (by decide) (fun f after hf => ?_) hread _
  rw [← List.cons_append, ← hname] at hf
  exact readElement?_ne (by decide)
    (fun content after hcontent => readContent?_styles_ne (depth + 1) h (by omega) hcontent) hf

/-- A page with a style that ends early is not read as it is. -/
theorem readPage?_ne_of_holdsStyleEnd
    (h : ∃ css ∈ xs.filterMap Descriptor.css?, HoldsStyleEnd css.toList) {f : Fragment}
    (hf : ofRose (shownPage settings xs) = [f]) :
    readPage? (doctype ++ (shownPage settings xs).render .compact 0 false) ≠ some f := by
  rw [shownPage, pageRose, flatMap_shown_head] at hf ⊢
  have hchars := toList_render_plain 0 (show IsContainer "html" by decide)
    [.element "head" [] none ((xs.filterMap Descriptor.css?).map styleRose),
      .element "body" [] none [.element "div" [("id", settings.rootId)] none
        (xs.flatMap (Descriptor.shown settings .root))]]
  have hlength := congrArg List.length hchars
  simp only [String.length_toList, List.length_cons, List.length_append] at hlength
  rw [ne_eq, readPage?_doctype hchars]
  intro hread
  generalize hsteps : String.length _ = steps at hread
  rw [String.length_append] at hsteps
  obtain ⟨k, rfl⟩ := Nat.exists_eq_add_of_le' (show 2 ≤ steps by omega)
  rw [ofRose_plain] at hf
  refine readElement?_ne (by decide) (fun content after hcontent => ?_) hread
    (List.cons.inj hf).1.symm
  exact readContent?_head_ne (0 + 1) h _ (by omega) hcontent

/-- What is written of a page. -/
def Page.fragments (p : Page) : List Fragment :=
  (p.document.tree.view p.document.html).elim [] ofRose

/-- **A compact page is read back as it was compiled, exactly if no style holds an end tag for
styles.** -/
theorem readPage?_compileToString_iff (settings : Settings) (hcompact : settings.pretty = false)
    (xs : List Descriptor) :
    ∃ f, (compile settings xs).1.fragments = [f] ∧
      (readPage? (compileToString settings xs) = some f ↔
        ∀ s css, .directive s ∈ xs → styleText? s = some css → ¬ HoldsStyleEnd css.toList) := by
  obtain ⟨f, hf⟩ : ∃ f, ofRose (shownPage settings xs) = [f] := ⟨_, ofRose_plain ..⟩
  have hstyles : (∀ s css, .directive s ∈ xs → styleText? s = some css →
      ¬ HoldsStyleEnd css.toList) ↔
      ∀ css ∈ xs.filterMap Descriptor.css?, ¬ HoldsStyleEnd css.toList := by
    constructor
    · intro h css hcss
      obtain ⟨x, hx, hstyle⟩ := List.mem_filterMap.1 hcss
      cases x with
      | directive s => exact h s css hx hstyle
      | element | invalid => cases hstyle
    · intro h s css hs hcss
      exact h css (List.mem_filterMap.2 ⟨_, hs, hcss⟩)
  refine ⟨f, ?_, ?_⟩
  · rw [Page.fragments, (compile_shows settings xs).view_html]
    exact hf
  · rw [compileToString_eq hcompact, hstyles]
    constructor
    · intro hread css hcss hbad
      exact readPage?_ne_of_holdsStyleEnd ⟨css, hcss, hbad⟩ hf hread
    · intro h
      exact readPage?_of_readable (readable_shownPage h) rfl hf

/-- A style, a text with a bracket, and an input whose event is named by its record. -/
def sampleDescription : List Descriptor :=
  [.directive "css: a > b {}", .directive "1 < 2",
    .element ⟨[("type", .string "input"), ("action", .string "f(\"x\")"),
      ("action_type", .string "onblur")]⟩]

theorem readPage?_sampleDescription :
    ∃ f, (compile {} sampleDescription).1.fragments = [f] ∧
      readPage? (compileToString {} sampleDescription) = some f := by
  obtain ⟨f, hf, hiff⟩ := readPage?_compileToString_iff {} rfl sampleDescription
  refine ⟨f, hf, hiff.2 fun s css hs hcss => ?_⟩
  have hstyle : styleText? "css: a > b {}" = some "a > b {}" := by decide
  have htext : styleText? "1 < 2" = none := by decide
  simp only [sampleDescription, List.mem_cons, Descriptor.directive.injEq, reduceCtorEq,
    List.not_mem_nil, or_false] at hs
  rcases hs with rfl | rfl
  · cases hstyle.symm.trans hcss
    decide
  · cases htext.symm.trans hcss

end PageBuilder
