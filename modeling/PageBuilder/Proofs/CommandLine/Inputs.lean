import PageBuilder.CommandLine.Run
import PageBuilder.Proofs.Files.Disks

/-!
# What happens to the input

A run writes at most one file, the one that its output path leads to, and it does so only if its
input is a description. Without an output option that path is the input's with the extension `html`:
another name in the same folder, unless the input has that extension already. Links and further
names of a file can make the two paths lead to one file all the same, and then the description is
lost, if it may be written (`input_kept`).
-/

namespace PageBuilder.CommandLine

open Files

variable {d : Disk} {o : Options} {args : List String} {text : String}
variable {description : List Descriptor}

/-- The files that are there after a run with arguments. -/
def filesAfter (args : List String) (d : Disk) : Disk := ((run args : StateM Disk Outcome).run d).2

/-! ## What a run writes -/

theorem writePage_files (path html : String) (d : Disk) :
    ((writePage path html : StateM Disk _).run d).2 =
      (d.writeBytes path html.toUTF8).toOption.getD d := by
  simp only [writePage, FileAccess.writeText, StateT.run_bind, StateT.run_get, pure_bind]
  cases d.writeBytes path html.toUTF8 <;> rfl

/-- Building a page writes it, and nothing else. -/
theorem buildPage_files (o : Options) (description : List Descriptor) (d : Disk) :
    ((buildPage o description : StateM Disk Outcome).run d).2 =
      (d.writeBytes o.outputPath (compileToString o.settings description).toUTF8).toOption.getD
        d := by
  have hhtml : (render o.settings (compile o.settings description).1).1 =
      compileToString o.settings description := rfl
  rw [← writePage_files]
  rcases hwritten : (writePage o.outputPath (compileToString o.settings description) :
    StateM Disk _).run d with ⟨⟨result, writing⟩, after⟩
  simp only [buildPage, StateT.run_bind, hhtml, hwritten]
  cases result <;> rfl

/-- A run whose input is a description writes its page, if the output path can be written. -/
theorem runWith_files_of_description (hread : d.readText o.input = .ok text)
    (hparse : parseDescription text = .ok description) :
    ((runWith o : StateM Disk Outcome).run d).2 =
      (d.writeBytes o.outputPath (compileToString o.settings description).toUTF8).toOption.getD
        d := by
  rw [← buildPage_files]
  simp only [runWith, StateT.run_bind, FileAccess.readText, StateT.run_get, pure_bind,
    StateT.run_pure, hread, hparse]

/-- A run whose input is no description writes nothing. -/
theorem runWith_files_of_no_description
    (h : ∀ text description, d.readText o.input = .ok text →
      parseDescription text ≠ .ok description) :
    ((runWith o : StateM Disk Outcome).run d).2 = d := by
  simp only [runWith, StateT.run_bind, FileAccess.readText, StateT.run_get, pure_bind,
    StateT.run_pure]
  cases hread : d.readText o.input with
  | error e => rfl
  | ok text =>
    cases hparse : parseDescription text with
    | error e =>
      simp only [hparse]
      rfl
    | ok description => exact absurd hparse (h text description hread)

theorem filesAfter_of_options (d : Disk) (h : Options.ofArguments args = .ok o) :
    filesAfter args d = ((runWith o : StateM Disk Outcome).run d).2 := by
  simp only [filesAfter, run, h, StateT.run_bind]
  rfl

/-- Arguments that ask for no run write nothing. -/
theorem filesAfter_of_stop (d : Disk) {stop : Stop} (h : Options.ofArguments args = .error stop) :
    filesAfter args d = d := by
  cases stop <;> simp only [filesAfter, run, h] <;> rfl

/-! ## The input -/

/-- What begins like markup is no description. -/
theorem parseDescription_ne_ok {cs : List Char} (h : text.toList = '<' :: cs)
    (description : List Descriptor) : parseDescription text ≠ .ok description := by
  have hvalue : (Json.Reader.value Json.depthLimit).read ('<' :: cs) =
      .error (.next .expectedValue ('<' :: cs)) := rfl
  rw [parseDescription, Json.read, h, hvalue]
  exact fun hparse => nomatch hparse

theorem compileToString_ne (settings : Settings) (hparse : parseDescription text = .ok description)
    (xs : List Descriptor) : compileToString settings xs ≠ text := by
  rintro rfl
  obtain ⟨cs, hcs⟩ : ∃ cs, (compileToString settings xs).toList = '<' :: cs := by
    rw [compileToString, Page.html, Markup.page, String.append_assoc, String.toList_append]
    exact ⟨_, rfl⟩
  exact parseDescription_ne_ok hcs description hparse

/-- A description is there after a run exactly if the output path does not lead to it, or if it may
not be written. -/
theorem runWith_keeps_iff (hread : d.readBytes o.input = .ok text.toUTF8)
    (hparse : parseDescription text = .ok description) :
    ((runWith o : StateM Disk Outcome).run d).2.readBytes o.input = .ok text.toUTF8 ↔
      (d.SameFile o.input o.outputPath → d.IsReadOnly o.input) := by
  rw [runWith_files_of_description (Disk.readText_eq_ok_iff.2 hread) hparse]
  constructor
  · intro hkept hsame
    by_contra hwritable
    obtain ⟨after, hwrite, hafter⟩ := Disk.exists_writeBytes_of_sameFile hsame hwritable
      (compileToString o.settings description).toUTF8
    rw [hwrite, Except.toOption, Option.getD_some, hafter, Except.ok.injEq] at hkept
    exact compileToString_ne o.settings hparse description (String.toByteArray_inj.1 hkept)
  · intro hkeep
    cases hwrite : d.writeBytes o.outputPath (compileToString o.settings description).toUTF8 with
    | error e => exact hread
    | ok after => exact Disk.readBytes_of_writeBytes hkeep hread hwrite

/-- **What a run leaves of its input.** Without an output option, the path that is written is the
input's exactly if that has the extension `html`. If the input is a description, then it is there
after the run as it was exactly if the two paths do not lead to one file, or to one that may not be
written; on a disk without links and second names, they lead to one file only if they are one path.
If the input is no description, or if no run is asked for, then no file changes at all. -/
theorem input_kept (d : Disk) (args : List String) :
    ((∀ o, Options.ofArguments args ≠ .ok o) → filesAfter args d = d) ∧
    ∀ o, Options.ofArguments args = .ok o → o.output = none →
      ∀ bytes, d.readBytes o.input = .ok bytes →
        (o.outputPath = o.input ↔ HasExtension o.input "html") ∧
        (d.Plain → (d.SameFile o.input o.outputPath ↔ HasExtension o.input "html")) ∧
        (∀ text description, bytes = text.toUTF8 → parseDescription text = .ok description →
          ((filesAfter args d).readBytes o.input = .ok bytes ↔
            (d.SameFile o.input o.outputPath → d.IsReadOnly o.input))) ∧
        ((∀ text, bytes = text.toUTF8 → ∀ description, parseDescription text ≠ .ok description) →
          filesAfter args d = d) := by
  constructor
  · intro hstop
    cases hargs : Options.ofArguments args with
    | error stop => exact filesAfter_of_stop d hargs
    | ok o => exact absurd hargs (hstop o)
  intro o hargs houtput bytes hread
  obtain ⟨number, hfile, -⟩ := Disk.readBytes_eq_ok_iff.1 hread
  obtain ⟨folder, name, hfolder, hname, hinput⟩ := Disk.exists_isFileName hfile
  have hpath : o.outputPath =
      String.ofList (folder ++ Path.renamed name "html".toList) := by
    rw [Options.outputPath, houtput, Option.getD_none, hinput,
      Path.withExtension_append hfolder hname]
  have hself : o.outputPath = o.input ↔ HasExtension o.input "html" := by
    rw [Options.outputPath, houtput, Option.getD_none, hinput]
    exact Path.withExtension_eq_self_iff hfolder hname (by decide) (by decide)
  refine ⟨hself, fun hplain => ⟨fun hsame => ?_, fun hextension => ?_⟩, ?_, fun hparse => ?_⟩
  · rw [hinput, hpath] at hsame
    have hrenamed := hplain.name_eq_of_sameFile hfolder hname.slash_notMem hname.ne_nil
      (Path.slash_notMem_renamed hname.slash_notMem (by decide)) Path.renamed_ne_nil hsame
    exact hself.1 (by rw [hpath, ← hrenamed, hinput])
  · rw [hself.2 hextension]
    exact ⟨number, hfile, hfile⟩
  · rintro text description rfl hparse
    rw [filesAfter_of_options d hargs]
    exact runWith_keeps_iff hread hparse
  · rw [filesAfter_of_options d hargs]
    apply runWith_files_of_no_description
    intro text description htext
    rw [Disk.readText_eq_ok_iff.1 htext, Except.ok.injEq] at hread
    exact hparse text hread.symm description

/-- A description of a line, as a file. -/
def sampleText : String := "[\"hr\"]"

/-- A disk that holds one description, under a name. -/
def sampleDisk (name : String) (readOnly : List Nat := []) : Disk where
  entries := [([name], .file 0)]
  files := [sampleText.toUTF8]
  readOnly

/-- A disk on which the page of the description would be the description itself. -/
def linkedDisk : Disk where
  entries := [(["page.json"], .file 0), (["page.html"], .link "page.json")]
  files := [sampleText.toUTF8]

theorem plain_sampleDisk (name : String) : (sampleDisk name).Plain := by
  have hfind : ∀ l, (sampleDisk name).find? l =
      if l = [] then some .directory else if l = [name] then some (.file 0) else none := by
    intro l
    rw [Disk.find?, sampleDisk, List.lookup_cons, List.lookup_nil]
    by_cases hname : l = [name]
    · simp [hname]
    · simp [hname, beq_eq_false_iff_ne.2 hname]
  have hplace : ∀ {l number}, (sampleDisk name).find? l = some (.file number) → l = [name] := by
    intro l number h
    by_contra hl
    rw [hfind, if_neg hl] at h
    split at h <;> cases h
  refine ⟨fun l path h => ?_, fun h h' => (hplace h).trans (hplace h').symm,
    Function.injective_id⟩
  rw [hfind] at h
  split at h
  · cases h
  · split at h <;> cases h

theorem file?_sampleDisk {name : List Char} (hname : IsFileName name) (hnul : '\x00' ∉ name)
    (hsize : (String.ofList name).utf8ByteSize < Disk.pathLimit) (readOnly : List Nat) :
    (sampleDisk (String.ofList name) readOnly).file? (String.ofList name) = some 0 := by
  have hdot : String.ofList name ≠ "." := fun h => hname.ne_dot (String.ofList_inj.1 h)
  have hdots : String.ofList name ≠ ".." := fun h => hname.ne_dots (String.ofList_inj.1 h)
  have hfind : (sampleDisk (String.ofList name) readOnly).find? [String.ofList name] =
      some (.file 0) := by
    simp [Disk.find?, sampleDisk]
  exact Disk.file?_of_isFileName hname hnul hsize (.file hdot hdots hfind)

theorem isFileName_json : IsFileName "page.json".toList :=
  ⟨by decide, by decide, by decide, by decide⟩

theorem isFileName_html : IsFileName "page.html".toList :=
  ⟨by decide, by decide, by decide, by decide⟩

/-- Both names of the linked disk lead to its file. -/
theorem files_linkedDisk :
    linkedDisk.file? "page.json" = some 0 ∧ linkedDisk.file? "page.html" = some 0 := by
  have hparts : Disk.parts "page.json" = ["page.json"] := Disk.parts_of_isFileName isFileName_json
  have hentry : ∀ links, linkedDisk.Leads links false [] ["page.json"]
      ⟨["page.json"], .file 0, false⟩ := fun links =>
    .file (by decide) (by decide) (show linkedDisk.find? ["page.json"] = some (.file 0) by decide)
  have hlink : linkedDisk.Leads Disk.linkLimit false [] ["page.html"]
      ⟨["page.json"], .file 0, false⟩ := by
    refine .link (by decide) (by decide)
      (show linkedDisk.find? ["page.html"] = some (.link "page.json") by decide) (by decide) ?_
    rw [hparts]
    exact hentry 39
  exact ⟨Disk.file?_of_isFileName isFileName_json (by decide) (by decide) (hentry _),
    Disk.file?_of_isFileName isFileName_html (by decide) (by decide) hlink⟩

/-- Beside `page.json`, the page gets a file of its own, unless its name is a link to `page.json`; a
description `page.html` is kept if it may not be written. -/
theorem input_kept_sampleDisk :
    let d := sampleDisk "page.json"
    let o : Options := { input := "page.json" }
    Options.ofArguments ["page.json"] = .ok o ∧ o.output = none ∧
      parseDescription sampleText = .ok [.directive "hr"] ∧
      d.readBytes "page.json" = .ok sampleText.toUTF8 ∧ ¬ HasExtension "page.json" "html" ∧
      d.Plain ∧ (filesAfter ["page.json"] d).readBytes "page.json" = .ok sampleText.toUTF8 ∧
      linkedDisk.readBytes "page.json" = .ok sampleText.toUTF8 ∧
      (filesAfter ["page.json"] linkedDisk).readBytes "page.json" ≠ .ok sampleText.toUTF8 ∧
      (filesAfter ["page.html"] (sampleDisk "page.html" [0])).readBytes "page.html" =
        .ok sampleText.toUTF8 := by
  intro d o
  have hargs : Options.ofArguments ["page.json"] = .ok o := rfl
  have hparse : parseDescription sampleText = .ok [.directive "hr"] := by with_unfolding_all rfl
  have hpath : o.outputPath = "page.html" := by decide +kernel
  have hfile : d.file? "page.json" = some 0 :=
    file?_sampleDisk isFileName_json (by decide) (by decide) []
  have hread : d.readBytes "page.json" = .ok sampleText.toUTF8 :=
    Disk.readBytes_eq_ok_iff.2 ⟨0, hfile, rfl⟩
  obtain ⟨hself, hsame, hkept, -⟩ := (input_kept d ["page.json"]).2 o hargs rfl _ hread
  have hextension : ¬ HasExtension "page.json" "html" := by
    rw [← hself, hpath]
    decide
  have hplain : d.Plain := plain_sampleDisk "page.json"
  have hreadLinked : linkedDisk.readBytes "page.json" = .ok sampleText.toUTF8 :=
    Disk.readBytes_eq_ok_iff.2 ⟨0, files_linkedDisk.1, rfl⟩
  have hsameLinked : linkedDisk.SameFile "page.json" o.outputPath :=
    ⟨0, files_linkedDisk.1, hpath.symm ▸ files_linkedDisk.2⟩
  have hwritable : ¬ linkedDisk.IsReadOnly "page.json" := by
    rintro ⟨number, hreadOnly, -⟩
    cases hreadOnly
  obtain ⟨-, -, hkeptLinked, -⟩ := (input_kept linkedDisk ["page.json"]).2 o hargs rfl _ hreadLinked
  have hfileLocked : (sampleDisk "page.html" [0]).file? "page.html" = some 0 :=
    file?_sampleDisk isFileName_html (by decide) (by decide) [0]
  obtain ⟨-, -, hkeptLocked, -⟩ := (input_kept (sampleDisk "page.html" [0]) ["page.html"]).2
    { input := "page.html" } rfl rfl _ (Disk.readBytes_eq_ok_iff.2 ⟨0, hfileLocked, rfl⟩)
  exact ⟨hargs, rfl, hparse, hread, hextension, hplain,
    (hkept _ _ rfl hparse).2 fun h => absurd ((hsame hplain).1 h) hextension, hreadLinked,
    fun hsaved => hwritable ((hkeptLinked _ _ rfl hparse).1 hsaved hsameLinked),
    (hkeptLocked _ _ rfl hparse).2 fun _ => ⟨0, List.mem_singleton_self 0, hfileLocked⟩⟩

/-- A description whose name has the extension of a page is lost. -/
theorem input_lost :
    let d := sampleDisk "page.html"
    let o : Options := { input := "page.html" }
    Options.ofArguments ["page.html"] = .ok o ∧ o.output = none ∧
      o.outputPath = "page.html" ∧
      d.readText "page.html" = .ok sampleText ∧
      (filesAfter ["page.html"] d).readText "page.html" = .ok
        "<!DOCTYPE html>\n<html><head></head><body><div id=\"root\"><hr /></div></body></html>" ∧
      (filesAfter ["page.html"] d).readBytes "page.html" ≠ d.readBytes "page.html" := by
  intro d o
  have hfile : d.file? "page.html" = some 0 :=
    file?_sampleDisk isFileName_html (by decide) (by decide) []
  have hargs : Options.ofArguments ["page.html"] = .ok o := rfl
  have hpath : o.outputPath = "page.html" := by decide +kernel
  have hread : d.readText "page.html" = .ok sampleText :=
    Disk.readText_eq_ok_iff.2 (Disk.readBytes_eq_ok_iff.2 ⟨0, hfile, rfl⟩)
  have hparse : parseDescription sampleText = .ok [.directive "hr"] := by with_unfolding_all rfl
  have hhtml : compileToString o.settings [.directive "hr"] =
      "<!DOCTYPE html>\n<html><head></head><body><div id=\"root\"><hr /></div></body></html>" := by
    decide +kernel
  have hafter : (filesAfter ["page.html"] d).readText "page.html" = .ok
      "<!DOCTYPE html>\n<html><head></head><body><div id=\"root\"><hr /></div></body></html>" := by
    rw [filesAfter_of_options d hargs, runWith_files_of_description (o := o) hread hparse, hpath,
      hhtml, Disk.writeBytes_of_file? hfile List.not_mem_nil, Disk.readText_eq_ok_iff,
      Disk.readBytes_eq_ok_iff]
    exact ⟨0, (Disk.grows_rewrite d 0 _).file?_eq_some hfile,
      Disk.content_rewrite_self (Disk.lt_of_file? hfile) _⟩
  refine ⟨hargs, rfl, hpath, hread, hafter, fun hsame => ?_⟩
  have htext : (filesAfter ["page.html"] d).readText "page.html" = d.readText "page.html" := by
    rw [Disk.readText, Disk.readText, hsame]
  rw [hafter, hread] at htext
  exact absurd (Except.ok.inj htext) (by decide)

end PageBuilder.CommandLine
