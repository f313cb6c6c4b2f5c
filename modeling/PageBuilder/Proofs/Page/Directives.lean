import PageBuilder.Page.Compile
import PageBuilder.Proofs.Page.Acceptance
import PageBuilder.Proofs.Page.Growth
import PageBuilder.Proofs.Page.RoundTrip
import PageBuilder.Proofs.Text.Trimming

/-!
# Directives

A directive is a line break, a rule, a style or a paragraph. A style is told by its mark, which may
stand after blanks and be in letters of either case; what comes after the mark is trimmed
(`styleText?_eq_some_iff`). The mark has four characters and, since none other than a letter of that
kind comes to its letters in lower case, four bytes: a text is therefore cut after its fourth byte
only where a character ends (`styleText?_eq_cutBytes?`).
-/

namespace PageBuilder

open Dom Text

variable {settings : Settings} {s s' css : String} {mark rest : List Char} {c : Char}

/-! ## Marks of styles -/

/-- The four characters that mark a style, in letters of either case. -/
def IsStyleMark (mark : List Char) : Prop := mark.map Char.toLower = "css:".toList

/-- A text that is a style: blanks, a mark, and what comes after it. -/
def MarksStyle (s : String) (rest : List Char) : Prop :=
  ∃ blanks mark, Blanks blanks ∧ IsStyleMark mark ∧ s.toList = blanks ++ (mark ++ rest)

/-- A character is its own lower case, or a capital letter. -/
theorem toNat_toLower (c : Char) :
    c.toLower.toNat = c.toNat ∨ c.toLower.toNat = c.toNat + 32 ∧ c.toNat ≤ 90 := by
  delta Char.toLower
  split
  · rename_i h
    have hcapital : c.toNat ≤ 90 := UInt32.le_iff_toNat_le.1 h.2
    have hshift : ('a'.val - 'A'.val).toNat = 32 := by decide
    refine .inr ⟨?_, hcapital⟩
    show (c.val + ('a'.val - 'A'.val)).toNat = c.val.toNat + 32
    rw [UInt32.toNat_add, hshift]
    exact Nat.mod_eq_of_lt (by have : c.val.toNat ≤ 90 := hcapital; omega)
  · exact .inl rfl

/-- A character that is one byte long in lower case is one byte long. -/
theorem utf8Size_of_toLower (h : c.toLower.toNat ≤ 127) : c.utf8Size = 1 := by
  rw [Char.utf8Size_eq_one_iff, UInt32.le_iff_toNat_le]
  show c.toNat ≤ 127
  have := toNat_toLower c
  omega

theorem utf8Len_of_utf8Size {cs : List Char} (h : ∀ c ∈ cs, c.utf8Size = 1) :
    String.utf8Len cs = cs.length := by
  induction cs with
  | nil => rfl
  | cons c cs ih =>
    rw [String.utf8Len_cons, ih fun d hd => h d (List.mem_cons_of_mem _ hd), h c List.mem_cons_self,
      List.length_cons]

namespace IsStyleMark

theorem length_eq (h : IsStyleMark mark) : mark.length = 4 := by
  simpa using congrArg List.length h

/-- A mark has as many bytes as characters. -/
theorem utf8ByteSize_eq (h : IsStyleMark mark) : (String.ofList mark).utf8ByteSize = 4 := by
  rw [String.utf8ByteSize_ofList, utf8Len_of_utf8Size, h.length_eq]
  intro c hc
  have hlower : c.toLower ∈ "css:".toList := h ▸ List.mem_map_of_mem hc
  have hascii : "css:".toList.all (·.toNat ≤ 127) = true := rfl
  exact utf8Size_of_toLower (of_decide_eq_true (List.all_eq_true.1 hascii _ hlower))

/-- A mark does not begin with a blank. -/
theorem head_not_blank (h : IsStyleMark mark) (rest : List Char) :
    ∀ c ∈ (mark ++ rest).head?, isBlank c = false := by
  cases mark with
  | nil => exact absurd h.length_eq (by decide)
  | cons c mark =>
    have hc : c.toLower = 'c' := (List.cons.inj h).1
    have hletter : c.toNat = 99 ∨ c.toNat = 67 := by
      have hcase := toNat_toLower c
      rw [hc] at hcase
      simp only [show 'c'.toNat = 99 from rfl] at hcase
      omega
    rintro d ⟨⟩
    rcases hletter with hletter | hletter <;> simp [isBlank, hletter]

end IsStyleMark

/-! ## The text of a style -/

/-- **The text of a style**: what comes after the mark, trimmed. -/
theorem styleText?_eq_some_iff :
    styleText? s = some css ↔ ∃ rest, MarksStyle s rest ∧ TrimsTo rest css.toList := by
  constructor
  · intro h
    rw [styleText?] at h
    split_ifs at h with hmark
    cases h
    obtain ⟨blanks, hblanks, hs⟩ := exists_eq_trimStart s.toList
    refine ⟨(trimStart s.toList).drop 4, ⟨blanks, _, hblanks, hmark, ?_⟩, ?_⟩
    · rw [List.take_append_drop, ← hs]
    · rw [String.toList_ofList]
      exact trim_eq_iff.1 rfl
  · rintro ⟨rest, ⟨blanks, mark, hblanks, hmark, hs⟩, hcss⟩
    have hstart : trimStart s.toList = mark ++ rest := by
      rw [hs, trimStart_append hblanks (hmark.head_not_blank rest)]
    rw [styleText?, hstart]
    simp only [List.take_left' hmark.length_eq, List.drop_left' hmark.length_eq]
    exact (if_pos hmark).trans (by rw [trim_eq_iff.2 hcss, String.ofList_toList])

/-- What comes after a mark can be trimmed. -/
theorem MarksStyle.exists_css (h : MarksStyle s rest) :
    ∃ css, TrimsTo rest css.toList ∧ styleText? s = some css := by
  have htrim : TrimsTo rest (String.ofList (trim rest)).toList := by
    rw [String.toList_ofList]
    exact trim_eq_iff.1 rfl
  exact ⟨_, htrim, styleText?_eq_some_iff.2 ⟨rest, h, htrim⟩⟩

/-- **Cutting by bytes.** The text of a style is what comes after the first four bytes, trimmed, if
these are whole characters and a mark. -/
theorem styleText?_eq_cutBytes? (s : String) :
    styleText? s =
      (cutBytes? (String.ofList (trimStart s.toList)) 4).bind fun (mark, rest) =>
        if mark.toList.map Char.toLower = "css:".toList then
          some (String.ofList (trim rest.toList))
        else none := by
  by_cases hmark : IsStyleMark ((trimStart s.toList).take 4)
  · have hcut : cutBytes? (String.ofList (trimStart s.toList)) 4 =
        some (String.ofList ((trimStart s.toList).take 4),
          String.ofList ((trimStart s.toList).drop 4)) :=
      cutBytes?_eq_some_iff.2
        ⟨by rw [← String.ofList_append, List.take_append_drop], hmark.utf8ByteSize_eq⟩
    rw [hcut, Option.bind_some]
    simp only [String.toList_ofList]
    rfl
  · refine (if_neg hmark).trans ?_
    cases hcut : cutBytes? (String.ofList (trimStart s.toList)) 4 with
    | none => rfl
    | some cut =>
      obtain ⟨a, b⟩ := cut
      obtain ⟨htext, -⟩ := cutBytes?_eq_some_iff.1 hcut
      have hstart : trimStart s.toList = a.toList ++ b.toList := by
        rw [← String.toList_append, ← htext, String.toList_ofList]
      -- a mark of four bytes would be the first four characters
      have hother : ¬ IsStyleMark a.toList := by
        intro h
        rw [hstart, List.take_left' h.length_eq] at hmark
        exact hmark h
      exact (if_neg hother).symm

/-! ## Pages -/

/-- Nothing can go wrong with the part of a directive. -/
theorem build_ofDirective (s : String) :
    ((Rose.element (Part.ofDirective s).tag [] none []).build (Part.ofDirective s).stages).1 =
      .ok () := by
  have hnone := Part.problems_ofDirective s
  rw [Part.problems] at hnone
  split at hnone
  · assumption
  · cases hnone

/-- Visiting a directive adds its part. -/
theorem grown_of_ofDirective (settings : Settings) (xs : List Descriptor) (index : ℕ)
    {part : Part} (hpart : Part.ofDirective s = part) {d d' : Draft}
    (hd : d = Draft.after settings xs) (hd' : d' = d.visit settings index (.directive s)) :
    ∃ n, d.Grown d' (d.parent part.place) n ∧
      d'.document.tree.view n = some part.rose ∧
      d'.diagnostics.toList = d.diagnostics.toList := by
  have hshows : d.Shows settings _ := hd ▸ Draft.shows_after settings xs
  obtain ⟨n, hgrown, hview, hdiagnostics⟩ := hshows.grown_add index part
  have hadd : d.add index part = d' := by rw [hd', ← hpart]; rfl
  rw [← hpart, build_ofDirective, diagnosticsOf, List.append_nil, hpart] at hdiagnostics
  rw [hadd] at hgrown hview hdiagnostics
  exact ⟨n, (hshows.parent_eq part.place).symm ▸ hgrown, hview, hdiagnostics⟩

/-- Directives that ask for the same part make the same page, whatever is before and after them. -/
theorem compile_congr_directive (h : Part.ofDirective s = Part.ofDirective s')
    (settings : Settings) (xs ys : List Descriptor) :
    compile settings (xs ++ .directive s :: ys) = compile settings (xs ++ .directive s' :: ys) := by
  have hvisit (d : Draft) (index : ℕ) :
      d.visit settings index (.directive s) = d.visit settings index (.directive s') :=
    congrArg (d.add index) h
  have hall : (Draft.start settings).visitAll settings 1 (xs ++ .directive s :: ys) =
      (Draft.start settings).visitAll settings 1 (xs ++ .directive s' :: ys) := by
    rw [Draft.visitAll_append, Draft.visitAll_append, Draft.visitAll, Draft.visitAll, hvisit]
  simp only [compile, hall, List.length_append, List.length_cons]

/-- **What a directive does to a page.** No diagnostic is produced. The page grows by one element
without attributes: an empty break or rule in the container, a style in the head with what comes
after its mark, trimmed, or a paragraph in the container with the directive itself. The mark is cut
off at a byte position where a character ends. Styles that differ in the blanks around mark and
text, or in the case of the mark, make the same page. -/
theorem visit_directive (settings : Settings) (xs : List Descriptor) (index : ℕ) (s : String)
    {d d' : Draft} (hd : d = Draft.after settings xs)
    (hd' : d' = d.visit settings index (.directive s)) :
    d'.diagnostics.toList = d.diagnostics.toList ∧
    (s = "br" ∨ s = "hr" → ∃ n, d.Grown d' d.root n ∧
      d'.document.tree.view n = some (.element s [] none [])) ∧
    (∀ rest, MarksStyle s rest → ∃ css, TrimsTo rest css.toList ∧ ∃ n,
      d.Grown d' d.document.head n ∧
        d'.document.tree.view n = some (.element "style" [] none [.text css])) ∧
    (s ≠ "br" → s ≠ "hr" → (¬ ∃ rest, MarksStyle s rest) → ∃ n, d.Grown d' d.root n ∧
      d'.document.tree.view n = some (.element "p" [] none [.text s])) ∧
    (styleText? s =
      (cutBytes? (String.ofList (trimStart s.toList)) 4).bind fun (mark, rest) =>
        if mark.toList.map Char.toLower = "css:".toList then
          some (String.ofList (trim rest.toList))
        else none) ∧
    ∀ s' rest rest' css ys, MarksStyle s rest → MarksStyle s' rest' →
      TrimsTo rest css → TrimsTo rest' css →
        compile settings (xs ++ .directive s :: ys) =
          compile settings (xs ++ .directive s' :: ys) := by
  refine ⟨?_, fun hbreak => ?_, fun rest hrest => ?_, fun hbr hhr hmark => ?_,
    styleText?_eq_cutBytes? s, fun s' rest rest' css ys hrest hrest' hcss hcss' => ?_⟩
  · exact (grown_of_ofDirective settings xs index rfl hd hd').choose_spec.2.2
  · have hpart : Part.ofDirective s = ⟨.root, s, []⟩ := if_pos hbreak
    obtain ⟨n, hgrown, hview, -⟩ := grown_of_ofDirective settings xs index hpart hd hd'
    exact ⟨n, hgrown, hview⟩
  · obtain ⟨css, htrim, hcss⟩ := hrest.exists_css
    obtain ⟨n, hgrown, hview, -⟩ :=
      grown_of_ofDirective settings xs index (ofDirective_of_styleText? hcss) hd hd'
    exact ⟨css, htrim, n, hgrown, hview⟩
  · have hnone : styleText? s = none := by
      rw [Option.eq_none_iff_forall_ne_some]
      intro css hcss
      obtain ⟨rest, hrest, -⟩ := styleText?_eq_some_iff.1 hcss
      exact hmark ⟨rest, hrest⟩
    have hpart : Part.ofDirective s = ⟨.root, "p", [.ok [.addText s]]⟩ := by
      rw [Part.ofDirective, if_neg (not_or.2 ⟨hbr, hhr⟩), hnone]
    obtain ⟨n, hgrown, hview, -⟩ := grown_of_ofDirective settings xs index hpart hd hd'
    exact ⟨n, hgrown, hview⟩
  · have hstyle : ∀ {t rest}, MarksStyle t rest → TrimsTo rest css →
        Part.ofDirective t = ⟨.head, "style", [.ok [.addText (String.ofList css)]]⟩ := by
      intro t rest hrest hcss
      refine ofDirective_of_styleText? (styleText?_eq_some_iff.2 ⟨rest, hrest, ?_⟩)
      rwa [String.toList_ofList]
    exact compile_congr_directive ((hstyle hrest hcss).trans (hstyle hrest' hcss').symm) settings
      xs ys

/-- A wide blank before a mark in mixed case, and blanks around the text after it. -/
theorem visit_directive_style :
    let s := "\u2003cSs:\ta b\n"
    ∃ d d' n, d = Draft.after {} [.directive "hr"] ∧ d' = d.visit {} 2 (.directive s) ∧
      MarksStyle s "\ta b\n".toList ∧ TrimsTo "\ta b\n".toList "a b".toList ∧
      d'.diagnostics.toList = d.diagnostics.toList ∧ d.Grown d' d.document.head n ∧
      d'.document.tree.view n = some (.element "style" [] none [.text "a b"]) ∧
      compile {} [.directive "hr", .directive s] =
        compile {} [.directive "hr", .directive "css:a b"] := by
  intro s
  have hmark : MarksStyle s "\ta b\n".toList :=
    ⟨['\u2003'], "cSs:".toList, by simp [Blanks, isBlank], by rw [IsStyleMark]; decide, by decide⟩
  have hmark' : MarksStyle "css:a b" "a b".toList :=
    ⟨[], "css:".toList, by simp [Blanks], by rw [IsStyleMark]; decide, by decide⟩
  have htrim : TrimsTo "\ta b\n".toList "a b".toList := trim_eq_iff.1 (by decide)
  have htrim' : TrimsTo "a b".toList "a b".toList := trim_eq_iff.1 (by decide)
  obtain ⟨hnone, -, hstyle, -, -, hsame⟩ := visit_directive {} [.directive "hr"] 2 s rfl rfl
  obtain ⟨css, hcss, n, hgrown, hview⟩ := hstyle _ hmark
  obtain rfl : css = "a b" :=
    String.toList_inj.1 ((trim_eq_iff.2 hcss).symm.trans (trim_eq_iff.2 htrim))
  exact ⟨_, _, n, rfl, rfl, hmark, htrim, hnone, hgrown, hview,
    hsame _ _ _ _ [] hmark hmark' htrim htrim'⟩

end PageBuilder
