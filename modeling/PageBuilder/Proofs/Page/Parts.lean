import PageBuilder.Proofs.Markup.Reading
import PageBuilder.Proofs.Page.Drafts

/-!
# Parts are readable

Whatever a record or a directive holds, the element that is built of it can be read back
(`readable_ofRecord`); only the text of a style has to be looked at. Every attribute name is either
fixed or was checked, and the steps of an element leave it at most one text or else nothing but
options (`Shaped`).
-/

namespace PageBuilder

open Dom Markup Markup.Fragment

variable {tag : String} {P : List Rose → Prop} {r : Rose}

/-! ## Attribute names -/

/-- A name that is checked to be an attribute name is read as a name. -/
theorem isName_of_isAttributeName {name : String} (h : isAttributeName name = true) :
    IsName name := by
  rw [isAttributeName, Bool.and_eq_true, bne_iff_ne, Bool.not_eq_true', List.any_eq_false] at h
  refine ⟨h.1, fun c hc => ?_⟩
  have hbreaks := h.2 c hc
  simp only [breaksAttributeName, Bool.or_eq_true, not_or, Bool.not_eq_true, beq_iff_eq] at hbreaks
  simp only [endsName, Bool.or_eq_false_iff, beq_eq_false_iff_ne]
  refine ⟨⟨⟨?_, hbreaks.2⟩, hbreaks.1.2⟩, hbreaks.1.1.1.2⟩
  rintro rfl
  exact absurd hbreaks.1.1.1.1.1.1.1 (by decide)

theorem isName_setNamed {name : String} (hname : IsName name) (value : String)
    {attributes : List (String × String)} (h : ∀ a ∈ attributes, IsName a.1) :
    ∀ a ∈ setNamed name value attributes, IsName a.1 := by
  induction attributes with
  | nil =>
    intro a ha
    rw [List.mem_singleton.1 ha]
    exact hname
  | cons b attributes ih =>
    rw [List.forall_mem_cons] at h
    rw [setNamed]
    split
    · exact List.forall_mem_cons.2 h
    · exact List.forall_mem_cons.2 ⟨h.1, ih h.2⟩

/-! ## Shapes of elements -/

/-- An element with a tag, names for its attributes, and children of some kind. -/
def Shaped (tag : String) (P : List Rose → Prop) : Rose → Prop
  | .element tag' attributes _ children =>
    tag' = tag ∧ (∀ a ∈ attributes, IsName a.1) ∧ P children
  | _ => False

theorem Shaped.mono {Q : List Rose → Prop} (h : Shaped tag P r) (hPQ : ∀ cs, P cs → Q cs) :
    Shaped tag Q r := by
  cases r with
  | document | text => exact h
  | element => exact ⟨h.1, h.2.1, hPQ _ h.2.2⟩

theorem shaped_new (tag : String) : Shaped tag (· = []) (.element tag [] none []) :=
  ⟨rfl, by simp, rfl⟩

/-- Steps that leave the children of an element alone, and set attributes with names. -/
def Step.Quiet : Step → Prop
  | setAttribute name _ => IsName name
  | setId _ | setSelectedIndex _ => True
  | addText _ | addOption _ => False

theorem Step.Quiet.shaped {step : Step} (hstep : step.Quiet) (h : Shaped tag P r) :
    Shaped tag P (step.apply r) := by
  cases r with
  | document | text => cases h
  | element =>
    cases step with
    | setId id => exact ⟨h.1, isName_setNamed (by decide) id h.2.1, h.2.2⟩
    | setAttribute name value => exact ⟨h.1, isName_setNamed hstep value h.2.1, h.2.2⟩
    | setSelectedIndex index => exact h
    | addText | addOption => cases hstep

/-- Children that are options, each with a text. -/
def Options (cs : List Rose) : Prop :=
  ∀ c ∈ cs, ∃ label, c = .element "option" [] none [.text label]

theorem shaped_addOption (label : String) (h : Shaped tag Options r) :
    Shaped tag Options ((Step.addOption label).apply r) := by
  cases r with
  | document | text => cases h
  | element =>
    refine ⟨h.1, h.2.1, fun c hc => ?_⟩
    rcases List.mem_append.1 hc with hc | hc
    · exact h.2.2 c hc
    · exact ⟨label, List.mem_singleton.1 hc⟩

theorem shaped_addText (s : String) (h : Shaped tag (· = []) r) :
    Shaped tag (· = [.text s]) ((Step.addText s).apply r) := by
  cases r with
  | document | text => cases h
  | element =>
    obtain ⟨htag, hnames, rfl⟩ := h
    exact ⟨htag, hnames, rfl⟩

/-! ## Shapes of built elements -/

theorem shaped_build_quiet {stages : List Stage}
    (hstages : ∀ stage ∈ stages, Stage.All Step.Quiet stage) (hr : Shaped tag P r) :
    Shaped tag P (r.build stages).2 :=
  build_induction (fun _ _ hstep h => hstep.shaped h) hstages hr

/-- Children of which there is at most one, a text. -/
def AtMostText (cs : List Rose) : Prop := cs = [] ∨ ∃ s, cs = [.text s]

/-- A stage that adds a text, followed by quiet ones, leaves a text at most. -/
theorem shaped_build_text (text : Except FieldError String) {stages : List Stage}
    (hstages : ∀ stage ∈ stages, Stage.All Step.Quiet stage) (hr : Shaped tag (· = []) r) :
    Shaped tag AtMostText (r.build (text.map (fun s => [.addText s]) :: stages)).2 := by
  cases text with
  | error e => exact hr.mono fun cs hcs => .inl hcs
  | ok s =>
    exact (shaped_build_quiet hstages (shaped_addText s hr)).mono fun cs hcs => .inr ⟨s, hcs⟩

theorem shaped_build_cons {stage : Stage} {stages : List Stage}
    (hstage : Stage.All Step.Quiet stage) (hr : Shaped tag (· = []) r)
    (h : ∀ r, Shaped tag (· = []) r → Shaped tag AtMostText (r.build stages).2) :
    Shaped tag AtMostText (r.build (stage :: stages)).2 := by
  cases stage with
  | error e => exact hr.mono fun cs hcs => .inl hcs
  | ok steps =>
    exact h _ (apply_induction (fun _ _ hstep h => Step.Quiet.shaped hstep h) (hstage steps rfl) hr)

/-! ## Shapes are readable -/

theorem Shaped.readable_void (h : Shaped tag (· = []) r) (hname : IsName tag)
    (hvoid : voidTags.contains tag = true) : Readable r := by
  cases r with
  | document | text => cases h
  | element =>
    obtain ⟨rfl, hnames, rfl⟩ := h
    exact .void hname hvoid hnames

theorem Shaped.readable (h : Shaped tag P r) (htag : IsContainer tag)
    (hP : ∀ cs, P cs → (∀ c ∈ cs, Readable c) ∧ Separated cs) : Readable r := by
  cases r with
  | document | text => cases h
  | element =>
    obtain ⟨rfl, hnames, hchildren⟩ := h
    exact .element htag hnames (hP _ hchildren).1 (hP _ hchildren).2

/-- Elements side by side are separated. -/
theorem separated_of_isElement {cs : List Rose} (h : ∀ c ∈ cs, c.isElement = true) :
    Separated cs := by
  induction cs with
  | nil => exact .nil
  | cons c cs ih =>
    rw [List.forall_mem_cons] at h
    cases cs with
    | nil => exact .singleton c
    | cons d cs => exact List.isChain_cons_cons.2 ⟨.inl h.1, ih h.2⟩

theorem AtMostText.readable {cs : List Rose} (h : AtMostText cs) :
    (∀ c ∈ cs, Readable c) ∧ Separated cs := by
  rcases h with rfl | ⟨s, rfl⟩
  · exact ⟨by simp, .nil⟩
  · refine ⟨fun c hc => ?_, .singleton _⟩
    rw [List.mem_singleton.1 hc]
    exact .text s

theorem Options.readable {cs : List Rose} (h : Options cs) :
    (∀ c ∈ cs, Readable c) ∧ Separated cs := by
  refine ⟨fun c hc => ?_, separated_of_isElement fun c hc => ?_⟩
  · obtain ⟨label, rfl⟩ := h c hc
    exact .element (by decide) (by simp)
      (AtMostText.readable (.inr ⟨label, rfl⟩)).1 (.singleton _)
  · obtain ⟨label, rfl⟩ := h c hc
    rfl

/-! ## Records -/

namespace Record

variable (r : Record)

theorem all_idStage : Stage.All Step.Quiet r.idStage :=
  Stage.all_map_toList _ fun _ => trivial

theorem all_requiredStage (field : String) {name : String} (hname : IsName name) :
    Stage.All Step.Quiet (r.requiredStage field name) :=
  Stage.all_map_singleton _ fun _ => hname

theorem all_optionalStage (field : String) {name : String} (hname : IsName name) :
    Stage.All Step.Quiet (r.optionalStage field name) :=
  Stage.all_map_toList _ fun _ => hname

theorem all_actionStage {event : String} (hevent : IsName event) :
    Stage.All Step.Quiet (r.actionStage event) :=
  Stage.all_map_toList _ fun _ => hevent

/-- The event that a record names was checked to be an attribute name. -/
theorem isName_of_actionType {name : String} (h : r.actionType = .ok (some name)) :
    IsName name := by
  rw [actionType] at h
  split at h
  · cases h
  · cases h
  · split at h
    · cases h
      exact isName_of_isAttributeName ‹_›
    · cases h

theorem all_inputActionStages :
    ∀ stage ∈ r.inputActionStages, Stage.All Step.Quiet stage := by
  rw [inputActionStages]
  cases r.action with
  | error e =>
    intro stage hstage
    rw [List.mem_singleton.1 hstage]
    exact Stage.all_error e
  | ok a =>
    cases a with
    | none => simp
    | some action =>
      have honchange : IsName "onchange" := by decide
      refine List.forall_mem_cons.2 ⟨Stage.all_ok ?_, List.forall_mem_cons.2 ⟨?_, by simp⟩⟩
      · intro step hstep
        rw [List.mem_singleton.1 hstep]
        exact honchange
      · intro steps hsteps step hstep
        cases htype : r.actionType with
        | error e =>
          rw [htype] at hsteps
          cases hsteps
        | ok name =>
          rw [htype] at hsteps
          cases hsteps
          obtain ⟨event, hevent, rfl⟩ := List.mem_map.1 hstep
          rw [Option.mem_toList] at hevent
          exact r.isName_of_actionType (htype.trans (congrArg Except.ok hevent))

theorem all_optionStages :
    ∀ stage ∈ r.optionStages, Stage.All (fun step => ∃ label, step = .addOption label) stage := by
  rw [optionStages]
  cases r.array "options" with
  | error e =>
    intro stage hstage
    rw [List.mem_singleton.1 hstage]
    exact Stage.all_error e
  | ok items =>
    intro stage hstage
    obtain ⟨⟨item, i⟩, -, rfl⟩ := List.mem_map.1 hstage
    exact Stage.all_map_singleton _ fun label => ⟨label, rfl⟩

theorem shaped_text_or_button (kind : ElementKind) (hkind : kind = .text ∨ kind = .button)
    (settings : Settings) :
    Shaped kind.tag AtMostText (Part.ofRecord settings kind r).rose := by
  have hquiet : ∀ stage ∈ [r.actionStage "onclick"], Stage.All Step.Quiet stage := by
    simpa using r.all_actionStage (by decide)
  rcases hkind with rfl | rfl
  · exact shaped_build_cons r.all_idStage (shaped_new "p")
      fun r' hr' => shaped_build_text (r.requiredScalar "text") hquiet hr'
  · exact shaped_build_cons r.all_idStage (shaped_new "button")
      fun r' hr' => shaped_build_text (r.requiredScalar "text") hquiet hr'

theorem shaped_link (settings : Settings) :
    Shaped "a" AtMostText (Part.ofRecord settings .link r).rose := by
  have hquiet : ∀ stage ∈ [r.requiredStage "href" "href",
      .ok [.setAttribute "target" settings.linkTarget]], Stage.All Step.Quiet stage := by
    have htarget : IsName "target" := by decide
    refine List.forall_mem_cons.2 ⟨r.all_requiredStage "href" (by decide),
      List.forall_mem_cons.2 ⟨Stage.all_ok fun step hstep => ?_, by simp⟩⟩
    rw [List.mem_singleton.1 hstep]
    exact htarget
  exact shaped_build_cons r.all_idStage (shaped_new "a")
    fun r' hr' => shaped_build_text (r.requiredScalar "text") hquiet hr'

theorem shaped_select (settings : Settings) :
    Shaped "select" Options (Part.ofRecord settings .select r).rose := by
  have hnew : Shaped "select" Options (.element "select" [] none []) :=
    (shaped_new "select").mono fun cs hcs => by simp [hcs, Options]
  refine build_induction (I := Shaped "select" Options)
    (Q := fun step => step.Quiet ∨ ∃ label, step = .addOption label) ?_ ?_ hnew
  · rintro step r' (hquiet | ⟨label, rfl⟩) hr'
    · exact hquiet.shaped hr'
    · exact shaped_addOption label hr'
  · refine List.forall_mem_cons.2
      ⟨r.all_idStage.mono fun _ => .inl, List.forall_mem_cons.2 ⟨?_, ?_⟩⟩
    · refine Stage.all_ok fun step hstep => ?_
      rw [List.mem_singleton.1 hstep]
      exact .inl trivial
    · intro stage hstage
      rcases List.mem_append.1 hstage with hstage | hstage
      · exact (r.all_optionStages stage hstage).mono fun _ => .inr
      · rw [List.mem_singleton.1 hstage]
        exact (r.all_actionStage (by decide)).mono fun _ => .inl

theorem shaped_image (settings : Settings) :
    Shaped "img" (· = []) (Part.ofRecord settings .image r).rose := by
  refine shaped_build_quiet (List.forall_mem_cons.2 ⟨r.all_idStage, ?_⟩) (shaped_new "img")
  simp only [List.forall_mem_cons]
  exact ⟨r.all_requiredStage "src" (by decide), r.all_optionalStage "alt" (by decide),
    r.all_optionalStage "width" (by decide), r.all_optionalStage "height" (by decide),
    r.all_actionStage (by decide), by simp⟩

theorem shaped_input (settings : Settings) :
    Shaped "input" (· = []) (Part.ofRecord settings .input r).rose := by
  refine shaped_build_quiet (List.forall_mem_cons.2 ⟨r.all_idStage, ?_⟩) (shaped_new "input")
  refine List.forall_mem_append.2 ⟨?_, r.all_inputActionStages⟩
  simp only [List.forall_mem_cons]
  exact ⟨r.all_optionalStage "input_type" (by decide),
    r.all_optionalStage "placeholder" (by decide), by simp⟩

theorem shaped_div (settings : Settings) :
    Shaped "div" (· = []) (Part.ofRecord settings .div r).rose := by
  refine shaped_build_quiet (List.forall_mem_cons.2 ⟨r.all_idStage, ?_⟩) (shaped_new "div")
  simpa using r.all_actionStage (by decide)

end Record

/-! ## Parts -/

/-- **Whatever a record holds, the element that it describes can be read back.** -/
theorem readable_ofRecord (settings : Settings) (kind : ElementKind) (r : Record) :
    Readable (Part.ofRecord settings kind r).rose := by
  cases kind with
  | text =>
    exact (r.shaped_text_or_button .text (.inl rfl) settings).readable (by decide)
      fun cs => AtMostText.readable
  | button =>
    exact (r.shaped_text_or_button .button (.inr rfl) settings).readable (by decide)
      fun cs => AtMostText.readable
  | link => exact (r.shaped_link settings).readable (by decide) fun cs => AtMostText.readable
  | select => exact (r.shaped_select settings).readable (by decide) fun cs => Options.readable
  | image => exact (r.shaped_image settings).readable_void (by decide) (by decide)
  | input => exact (r.shaped_input settings).readable_void (by decide) (by decide)
  | div =>
    exact (r.shaped_div settings).readable (by decide) fun cs hcs => AtMostText.readable (.inl hcs)

end PageBuilder
