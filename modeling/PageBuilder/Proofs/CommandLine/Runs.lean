import PageBuilder.CommandLine.Run
import PageBuilder.Files.FileMap

/-!
# Runs and files

What a run does depends on three things about the files: what the input holds, whether it is a
description, and whether the output can be written. If the input is no description, the run ends
before anything is printed or written (`runOn_of_not_describes`). Otherwise the page is built and
printed, and written if it can be (`runOn_of_describes`). `runOn_eq` puts the two together; the
problems that descriptors have are no part of it, except in what is printed about them.
-/

namespace PageBuilder

open Files

/-- A path leads to a file that can be read, and that holds a list in JSON. -/
def Files.FileMap.Describes (files : FileMap) (path : String) (items : List Json) : Prop :=
  ∃ text : String, files.readBytes path = .ok text.toUTF8 ∧ Json.read text = .ok (.array items)

namespace CommandLine

open Log

/-- A run with given options: what it leaves, and the files that are there then. -/
def Options.runOn (o : Options) (files : FileMap) : Outcome × FileMap :=
  (runWith o : StateM FileMap Outcome).run files

variable {o : Options} {files : FileMap} {items : List Json} {text : String}

/-! ## Reading -/

/-- A text is a description if it holds a list in JSON. -/
theorem parseDescription_eq_ok_iff {description : List Descriptor} :
    parseDescription text = .ok description ↔
      ∃ items, Json.read text = .ok (.array items) ∧ items.map Descriptor.ofJson = description := by
  rw [parseDescription]
  cases Json.read text with
  | error e => simp
  | ok value => cases value <;> simp

/-- An input that is no description ends the run. Nothing is printed or written. -/
theorem runOn_of_not_describes (h : ¬ ∃ items, files.Describes o.input items) :
    ∃ report, o.runOn files = ({ status := 1, errorOutput := report }, files) := by
  rw [Options.runOn, runWith]
  simp only [StateT.run_bind, FileAccess.readText, StateT.run_get, pure_bind, StateT.run_pure]
  cases hread : files.readText o.input with
  | error e => exact ⟨_, rfl⟩
  | ok text =>
    cases hparse : parseDescription text with
    | error e =>
      simp only [hparse]
      exact ⟨_, rfl⟩
    | ok description =>
      obtain ⟨items, hitems, -⟩ := parseDescription_eq_ok_iff.1 hparse
      exact absurd ⟨items, text, FileMap.readText_eq_ok_iff.1 hread, hitems⟩ h

theorem runOn_eq_buildPage (h : files.Describes o.input items) :
    o.runOn files =
      (buildPage o (items.map Descriptor.ofJson) : StateM FileMap Outcome).run files := by
  obtain ⟨text, hbytes, hitems⟩ := h
  have hread := FileMap.readText_eq_ok_iff.2 hbytes
  have hparse := parseDescription_eq_ok_iff.2 ⟨items, hitems, rfl⟩
  rw [Options.runOn, runWith]
  simp only [StateT.run_bind, FileAccess.readText, StateT.run_get, pure_bind, StateT.run_pure,
    hread, hparse]

/-! ## Building and writing -/

theorem writePage_run (files : FileMap) (path html : String) :
    (writePage path html : StateM FileMap _).run files =
      match files.writeFault path with
      | none => ((.ok (), [.written path]), files.put path html)
      | some reason => ((.error ⟨path, reason⟩, [.notWritten path reason]), files) := by
  simp only [writePage, FileAccess.writeText, FileMap.writeText, StateT.run_bind, StateT.run_get,
    pure_bind]
  cases files.writeFault path <;> rfl

/-- A page is printed, and written if its path can be. -/
theorem buildPage_run (description : List Descriptor) :
    let (outcome, after) := (buildPage o description : StateM FileMap Outcome).run files
    outcome.output =
        o.printed (compile o.settings description).1 (compileToString o.settings description) ∧
      (files.writeFault o.outputPath = none → outcome.status = 0 ∧
        after = files.put o.outputPath (compileToString o.settings description)) ∧
      (files.writeFault o.outputPath ≠ none → outcome.status = 1 ∧ after = files) := by
  have hwrite := writePage_run files o.outputPath (compileToString o.settings description)
  have hhtml : (render o.settings (compile o.settings description).1).1 =
      compileToString o.settings description := rfl
  simp only [buildPage, StateT.run_bind, hhtml, hwrite]
  cases files.writeFault o.outputPath with
  | none => exact ⟨rfl, fun _ => ⟨rfl, rfl⟩, fun hfault => absurd rfl hfault⟩
  | some reason => exact ⟨rfl, fun hfault => absurd hfault (by simp), fun _ => ⟨rfl, rfl⟩⟩

/-! ## What is printed -/

/-- The code and the wording under which a problem is printed. -/
def reported : Problem → String × String
  | .notADescriptor found =>
    ("not_a_descriptor", "expected a string or an object, found " ++ found.phrase)
  | .missingType => ("missing_type", "type is not defined or is not a string")
  | .field (.missing field) => ("field_error", "missing required field `" ++ field ++ "`")
  | .field (.wrongType field expected found) =>
    ("field_error",
      "field `" ++ field ++ "` must be " ++ expected.phrase ++ ", found " ++ found.phrase)
  | .field (.invalidAttributeName name) =>
    ("field_error", "`" ++ name ++ "` is not a valid attribute name")
  | .field (.tree error) => ("field_error", error.message)

/-- The object that is printed for a diagnostic. -/
def reportOf (d : Diagnostic) : Json :=
  .object [("index", .number (.integer d.index)), ("code", .string (reported d.problem).1),
    ("message", .string (reported d.problem).2)]

theorem toJson_eq_reportOf (d : Diagnostic) : d.toJson = reportOf d := by
  obtain ⟨index, problem⟩ := d
  cases problem with
  | notADescriptor | missingType => rfl
  | field error => cases error <;> rfl

theorem diagnosticsJson_eq (page : Page) :
    page.diagnosticsJson = .array (page.diagnostics.map reportOf) := by
  rw [Page.diagnosticsJson, funext toJson_eq_reportOf]

/-! ## Whole runs -/

/-- A run whose input is a description builds its page. -/
theorem runOn_of_describes (h : files.Describes o.input items) :
    (o.runOn files).1.output = o.printed (compile o.settings (items.map Descriptor.ofJson)).1
        (compileToString o.settings (items.map Descriptor.ofJson)) ∧
      (files.writeFault o.outputPath = none → (o.runOn files).1.status = 0 ∧
        (o.runOn files).2 =
          files.put o.outputPath (compileToString o.settings (items.map Descriptor.ofJson))) ∧
      (files.writeFault o.outputPath ≠ none →
        (o.runOn files).1.status = 1 ∧ (o.runOn files).2 = files) := by
  rw [runOn_eq_buildPage h]
  exact buildPage_run _

/-- A run with arguments is a run with the options that they ask for, after a greeting. -/
theorem run_of_options (files : FileMap) {args : List String}
    (h : Options.ofArguments args = .ok o) :
    (run args : StateM FileMap Outcome).run files =
      ({ (o.runOn files).1 with log := .started :: (o.runOn files).1.log }, (o.runOn files).2) := by
  simp only [run, h, StateT.run_bind, Options.runOn]
  rfl

/-- **A run as a function of the files.** It succeeds exactly if the input is a description and the
output can be written; then the file under the output's path becomes the text of the page, and no
other file changes. If it fails, no file changes at all. What is printed depends on the input
alone: the text of the page and an object for each diagnostic, as far as they are asked for. -/
theorem runOn_eq (o : Options) (files : FileMap) :
    let output := o.output.getD (Path.withExtension o.input "html")
    let settings : Settings := { rootId := o.rootId, pretty := o.pretty }
    let outcome := (o.runOn files).1
    let after := (o.runOn files).2
    (outcome.status = 0 ↔
      (∃ items, files.Describes o.input items) ∧ files.writeFault output = none) ∧
    (outcome.status ≠ 0 → outcome.status = 1 ∧ after = files) ∧
    ((¬ ∃ items, files.Describes o.input items) → outcome.output = "") ∧
    (∀ items, files.Describes o.input items →
      let page := (compile settings (items.map Descriptor.ofJson)).1
      let html := compileToString settings (items.map Descriptor.ofJson)
      (outcome.status = 0 → after =
        { files with contents := Function.update files.contents output (some html.toUTF8) }) ∧
      outcome.output =
        (if o.print then html ++ "\n" else "") ++
          (if o.diagnosticsJson then
            (Json.array (page.diagnostics.map reportOf)).pretty ++ "\n" else "")) ∧
    ∀ args, Options.ofArguments args = .ok o →
      (run args : StateM FileMap Outcome).run files =
        ({ outcome with log := .started :: outcome.log }, after) := by
  intro output settings outcome after
  have hargs : ∀ args, Options.ofArguments args = .ok o → _ := fun _ => run_of_options files
  have hprinted : ∀ items, files.Describes o.input items → outcome.output =
      (if o.print then compileToString settings (items.map Descriptor.ofJson) ++ "\n" else "") ++
        (if o.diagnosticsJson then
          (Json.array ((compile settings (items.map Descriptor.ofJson)).1.diagnostics.map
            reportOf)).pretty ++ "\n" else "") := fun items hitems => by
    rw [← diagnosticsJson_eq]
    exact (runOn_of_describes hitems).1
  by_cases hinput : ∃ items, files.Describes o.input items
  · obtain ⟨items, hitems⟩ := hinput
    obtain ⟨-, hwritten, hrefused⟩ := runOn_of_describes hitems
    by_cases hfault : files.writeFault output = none
    · have hstatus : outcome.status = 0 := (hwritten hfault).1
      refine ⟨iff_of_true hstatus ⟨⟨items, hitems⟩, hfault⟩, absurd hstatus,
        absurd ⟨items, hitems⟩, fun items hitems => ?_, hargs⟩
      obtain ⟨-, hwritten, -⟩ := runOn_of_describes hitems
      exact ⟨fun _ => (hwritten hfault).2, hprinted items hitems⟩
    · obtain ⟨hstatus, hafter⟩ := hrefused hfault
      have hfailed : outcome.status ≠ 0 := hstatus.trans_ne Nat.one_ne_zero
      exact ⟨iff_of_false hfailed fun h => hfault h.2, fun _ => ⟨hstatus, hafter⟩,
        absurd ⟨items, hitems⟩, fun items hitems =>
          ⟨fun hdone => absurd hdone hfailed, hprinted items hitems⟩, hargs⟩
  · obtain ⟨report, hrun⟩ := runOn_of_not_describes hinput
    have houtcome : outcome = { status := 1, errorOutput := report } := congrArg Prod.fst hrun
    have hafter : after = files := congrArg Prod.snd hrun
    rw [houtcome]
    exact ⟨iff_of_false Nat.one_ne_zero fun h => hinput h.1, fun _ => ⟨rfl, hafter⟩, fun _ => rfl,
      fun items hitems => absurd ⟨items, hitems⟩ hinput, houtcome ▸ hargs⟩

/-- A single file, which holds a description that is wrong about everything. -/
def sampleFiles : FileMap := FileMap.put { contents := fun _ => none } "page.json" "[null]"

/-- A problem with a descriptor is no failure of the run. -/
theorem runOn_eq_sampleFiles :
    let args := ["page.json", "--print", "--diagnostics-json"]
    let o : Options := { input := "page.json", print := true, diagnosticsJson := true }
    let html := "<!DOCTYPE html>\n<html><head></head><body><div id=\"root\"></div></body></html>"
    sampleFiles.Describes "page.json" [.null] ∧ Options.ofArguments args = .ok o ∧
      (o.runOn sampleFiles).1.status = 0 ∧
      (o.runOn sampleFiles).1.output = html ++ "\n" ++
        "[\n  \x7b\n    \"index\": 1,\n    \"code\": \"not_a_descriptor\",\n" ++
        "    \"message\": \"expected a string or an object, found null\"\n  \x7d\n]\n" ∧
      (o.runOn sampleFiles).2.contents "page.html" = some html.toUTF8 ∧
      ((run args : StateM FileMap Outcome).run sampleFiles).1.status = 0 := by
  intro args o html
  have hdescribes : sampleFiles.Describes "page.json" [.null] :=
    ⟨"[null]", by simp [sampleFiles, FileMap.put, FileMap.readBytes], by with_unfolding_all rfl⟩
  have hargs : Options.ofArguments args = .ok o := rfl
  have hhtml : compileToString {} [.invalid .null] = html := by decide +kernel
  have hdiagnostics : (compile {} [.invalid .null]).1.diagnostics =
      [⟨1, .notADescriptor .null⟩] := by
    decide +kernel
  have hpath : Path.withExtension "page.json" "html" = "page.html" := by decide +kernel
  obtain ⟨hstatus, -, -, hpage, hrun⟩ := runOn_eq o sampleFiles
  have hdone := hstatus.2 ⟨⟨_, hdescribes⟩, rfl⟩
  obtain ⟨hafter, houtput⟩ := hpage _ hdescribes
  refine ⟨hdescribes, hargs, hdone, ?_, ?_, ?_⟩
  · rw [houtput]
    show compileToString {} [.invalid .null] ++ "\n" ++
      ((Json.array ((compile {} [.invalid .null]).1.diagnostics.map reportOf)).pretty ++ "\n") = _
    rw [hhtml, hdiagnostics]
    decide +kernel
  · rw [hafter hdone, ← hhtml, ← hpath]
    exact Function.update_self ..
  · rw [hrun _ hargs]
    exact hdone

end CommandLine

end PageBuilder
