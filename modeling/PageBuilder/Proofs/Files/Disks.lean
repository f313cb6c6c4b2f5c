import PageBuilder.Files.FileMap
import PageBuilder.Proofs.Files.Paths

/-!
# Files that are kept

What is written under a path goes into the file that the path leads to (`Disk.file?`), or into a new
one. So a file is kept exactly if the path that is written does not lead to it, or if it may not be
written (`readBytes_of_writeBytes`, `exists_writeBytes_of_sameFile`): a new entry does not lead a
path elsewhere that led to a file before (`Grows.file?_eq_some`).

Two paths can lead to one file through links, because the file has several names, or because the
disk does not tell their names apart. On a `Plain` disk there is nothing of that kind: a path is
followed through directories to the place that its last part names, and paths with one folder are
followed through the same directories (`Plain.name_eq_of_sameFile`).
-/

namespace PageBuilder.Files.Disk

variable {d d' after : Disk} {links number : ℕ} {slashed : Bool} {here : Location}
variable {path part : String} {ps : List String} {target : Target}
variable {folder name other : List Char} {bytes text : ByteArray}

/-! ## Following paths -/

/-- How parts lead from a directory to a target, through at most a number of links. -/
inductive Leads (d : Disk) : ℕ → Bool → Location → List String → Target → Prop where
  | here (links : ℕ) (slashed : Bool) (here : Location) :
      Leads d links slashed here [] ⟨here, .directory, slashed⟩
  | dot {links : ℕ} {slashed : Bool} {here : Location} {rest : List String} {target : Target}
      (h : Leads d links slashed here rest target) : Leads d links slashed here ("." :: rest) target
  | dots {links : ℕ} {slashed : Bool} {here : Location} {rest : List String} {target : Target}
      (h : Leads d links slashed here.dropLast rest target) :
      Leads d links slashed here (".." :: rest) target
  | directory {links : ℕ} {slashed : Bool} {here : Location} {name : String} {rest : List String}
      {target : Target} (hdot : name ≠ ".") (hdots : name ≠ "..")
      (hfind : d.find? (here ++ [d.spelling name]) = some .directory)
      (h : Leads d links slashed (here ++ [d.spelling name]) rest target) :
      Leads d links slashed here (name :: rest) target
  | file {links : ℕ} {slashed : Bool} {here : Location} {name : String} {number : ℕ}
      (hdot : name ≠ ".") (hdots : name ≠ "..")
      (hfind : d.find? (here ++ [d.spelling name]) = some (.file number)) :
      Leads d links slashed here [name] ⟨here ++ [d.spelling name], .file number, slashed⟩
  | nothing {links : ℕ} {slashed : Bool} {here : Location} {name : String}
      (hdot : name ≠ ".") (hdots : name ≠ "..")
      (hfind : d.find? (here ++ [d.spelling name]) = none) :
      Leads d links slashed here [name] ⟨here ++ [d.spelling name], .nothing, slashed⟩
  | link {links : ℕ} {slashed : Bool} {here : Location} {name path : String} {rest : List String}
      {target : Target} (hdot : name ≠ ".") (hdots : name ≠ "..")
      (hfind : d.find? (here ++ [d.spelling name]) = some (.link path)) (hpath : path ≠ "")
      (h : Leads d links (slashed || (rest.isEmpty && isSlashed path)) (startOf path here)
        (parts path ++ rest) target) :
      Leads d (links + 1) slashed here (name :: rest) target

theorem leads_of_follow (h : d.follow links slashed here ps = .ok target) :
    d.Leads links slashed here ps target := by
  fun_induction follow with
  | case1 links slashed here =>
    cases h
    exact .here links slashed here
  | case2 links slashed here rest ih => exact .dot (ih h)
  | case3 links slashed here rest ih => exact .dots (ih h)
  | case4 slashed here name rest hdot hdots there links hfind ih =>
    exact .directory hdot hdots hfind (ih h)
  | case5 links slashed here name rest hdot hdots there number hfind hrest =>
    cases h
    obtain rfl := List.isEmpty_iff.1 hrest
    exact .file hdot hdots hfind
  | case9 slashed here name rest hdot hdots there path links hfind hpath ih =>
    exact .link hdot hdots hfind hpath (ih h)
  | case10 links slashed here name rest hdot hdots there hfind hrest =>
    cases h
    obtain rfl := List.isEmpty_iff.1 hrest
    exact .nothing hdot hdots hfind
  | case6 | case7 | case8 | case11 => cases h

theorem Leads.follow_eq (h : d.Leads links slashed here ps target) :
    d.follow links slashed here ps = .ok target := by
  induction h with
  | here => rw [follow]
  | dot h ih => rw [follow, ih]
  | dots h ih => rw [follow, ih]
  | directory hdot hdots hfind h ih => simp [follow, hfind, ih]
  | file hdot hdots hfind => simp [follow, hfind]
  | nothing hdot hdots hfind => simp [follow, hfind]
  | link hdot hdots hfind hpath h ih => simp [follow, hfind, hpath, ih]

theorem Leads.slashed_eq (h : d.Leads links slashed here ps target) (hslashed : slashed = true) :
    target.slashed = true := by
  induction h with
  | here | file | nothing => exact hslashed
  | dot h ih | dots h ih => exact ih hslashed
  | directory hdot hdots hfind h ih => exact ih hslashed
  | link hdot hdots hfind hpath h ih => exact ih (by rw [hslashed, Bool.true_or])

/-- What a disk has in the place that something was found in. -/
def Found.entry? : Found → Option DiskEntry
  | directory => some .directory
  | file number => some (.file number)
  | nothing => none

theorem Leads.find?_location (h : d.Leads links slashed here ps target)
    (hfound : target.found ≠ .directory) : d.find? target.location = target.found.entry? := by
  induction h with
  | here => exact absurd rfl hfound
  | dot h ih | dots h ih => exact ih hfound
  | directory hdot hdots hfind h ih => exact ih hfound
  | file hdot hdots hfind => exact hfind
  | nothing hdot hdots hfind => exact hfind
  | link hdot hdots hfind hpath h ih => exact ih hfound

/-- A path that ends in `.` or `..` leads to a directory, if it leads anywhere. -/
theorem Leads.found_eq_directory (h : d.Leads links slashed here ps target)
    (hlast : ps.getLast? = some "." ∨ ps.getLast? = some "..") : target.found = .directory := by
  induction h with
  | here => rfl
  | @dot _ _ _ rest _ h ih | @dots _ _ _ rest _ h ih =>
    cases rest with
    | nil =>
      cases h
      rfl
    | cons next rest => exact ih (by rwa [List.getLast?_cons_cons] at hlast)
  | @directory _ _ _ _ rest _ hdot hdots hfind h ih =>
    cases rest with
    | nil => simp [hdot, hdots] at hlast
    | cons next rest => exact ih (by rwa [List.getLast?_cons_cons] at hlast)
  | file hdot hdots | nothing hdot hdots => simp [hdot, hdots] at hlast
  | @link _ _ _ _ _ rest _ hdot hdots hfind hpath h ih =>
    cases rest with
    | nil => simp [hdot, hdots] at hlast
    | cons next rest =>
      rw [List.getLast?_cons_cons] at hlast
      exact ih (by rwa [List.getLast?_append_of_ne_nil _ (List.cons_ne_nil next rest)])

/-! ## Resolving paths -/

/-- Whether a path is followed at all does not depend on the disk. -/
theorem resolve_eq_follow (h : d.resolve path = .ok target) (d' : Disk) :
    d'.resolve path = d'.follow linkLimit (isSlashed path) [] (parts path) := by
  unfold resolve at h ⊢
  split_ifs at h ⊢
  rfl

theorem leads_of_resolve (h : d.resolve path = .ok target) :
    d.Leads linkLimit (isSlashed path) [] (parts path) target :=
  leads_of_follow ((resolve_eq_follow h d).symm.trans h)

/-- The file that a path leads to, by its number. -/
def file? (d : Disk) (path : String) : Option ℕ :=
  match d.resolve path with
  | .ok ⟨_, .file number, false⟩ => some number
  | _ => none

theorem file?_eq_some_iff :
    d.file? path = some number ↔ ∃ l, d.resolve path = .ok ⟨l, .file number, false⟩ := by
  unfold file?
  match d.resolve path with
  | .error e => simp
  | .ok ⟨l, .directory, slashed⟩ => simp
  | .ok ⟨l, .nothing, slashed⟩ => simp
  | .ok ⟨l, .file number', slashed⟩ => cases slashed <;> simp

theorem isSlashed_of_isFileName (hname : IsFileName name) :
    isSlashed (String.ofList name) = false := by
  rw [isSlashed, String.toList_ofList, beq_eq_false_iff_ne]
  exact fun hlast => hname.slash_notMem (List.mem_of_getLast? hlast)

theorem parts_of_isFileName (hname : IsFileName name) :
    parts (String.ofList name) = [String.ofList name] := by
  have hempty : parts (String.ofList []) = [] := by simp [parts, splitOn_slash]
  simpa only [List.nil_append, hempty] using
    parts_append (.inl rfl) hname.slash_notMem hname.ne_nil

/-- A name is followed from the top directory. -/
theorem file?_of_isFileName (hname : IsFileName name) (hnul : '\x00' ∉ name)
    (hsize : (String.ofList name).utf8ByteSize < pathLimit) {l : Location}
    (h : d.Leads linkLimit false [] [String.ofList name] ⟨l, .file number, false⟩) :
    d.file? (String.ofList name) = some number := by
  have hempty : String.ofList name ≠ "" := fun h => hname.ne_nil (String.ofList_inj.1 h)
  rw [file?_eq_some_iff, resolve, isSlashed_of_isFileName hname, parts_of_isFileName hname,
    String.toList_ofList, if_neg (by simpa using hnul), if_neg hempty, if_neg (Nat.not_le.2 hsize)]
  exact ⟨l, h.follow_eq⟩

theorem lt_of_file? (h : d.file? path = some number) : number < d.files.length := by
  obtain ⟨l, hresolve⟩ := file?_eq_some_iff.1 h
  have hfind : d.find? l = some (.file number) :=
    (leads_of_resolve hresolve).find?_location (by simp)
  rw [find?] at hfind
  split_ifs at hfind
  · cases hfind
  · obtain ⟨before, after, hentries, -⟩ := List.lookup_eq_some_iff.1 hfind
    exact d.stored l number (by rw [hentries]; simp)

/-- What can be read is a file. -/
theorem readBytes_eq_ok_iff :
    d.readBytes path = .ok bytes ↔
      ∃ number, d.file? path = some number ∧ d.content number = bytes := by
  unfold readBytes file?
  match d.resolve path with
  | .error e => simp
  | .ok ⟨l, .directory, slashed⟩ => simp
  | .ok ⟨l, .nothing, slashed⟩ => simp
  | .ok ⟨l, .file number, slashed⟩ => cases slashed <;> simp

/-- A file reads as a text exactly if its bytes are the text's. -/
theorem readText_eq_ok_iff {text : String} :
    d.readText path = .ok text ↔ d.readBytes path = .ok text.toUTF8 := by
  unfold readText
  cases d.readBytes path with
  | error e => simp
  | ok bytes =>
    simp only [Except.ok.injEq, ← FileMap.fromUTF8?_eq_some_iff]
    cases String.fromUTF8? bytes <;> simp

/-! ## Writing -/

/-- A disk has the entries of another, and perhaps more. -/
structure Grows (d d' : Disk) : Prop where
  spelling_eq : d'.spelling = d.spelling
  find?_eq : ∀ {l e}, d.find? l = some e → d'.find? l = some e

theorem Leads.grows (h : d.Leads links slashed here ps target) (hgrows : d.Grows d')
    (hfound : target.found ≠ .nothing) : d'.Leads links slashed here ps target := by
  have hspelling := hgrows.spelling_eq.symm
  induction h with
  | here links slashed here => exact .here links slashed here
  | dot h ih => exact .dot (ih hfound)
  | dots h ih => exact .dots (ih hfound)
  | directory hdot hdots hfind h ih =>
    replace hfind := hgrows.find?_eq hfind
    rw [hspelling] at hfind ih
    exact .directory hdot hdots hfind (ih hfound)
  | file hdot hdots hfind =>
    replace hfind := hgrows.find?_eq hfind
    rw [hspelling] at hfind ⊢
    exact .file hdot hdots hfind
  | nothing => exact absurd rfl hfound
  | link hdot hdots hfind hpath h ih =>
    replace hfind := hgrows.find?_eq hfind
    rw [hspelling] at hfind
    exact .link hdot hdots hfind hpath (ih hfound)

/-- A path that led to a file still leads to it. -/
theorem Grows.file?_eq_some (hgrows : d.Grows d') (h : d.file? path = some number) :
    d'.file? path = some number := by
  obtain ⟨l, hresolve⟩ := file?_eq_some_iff.1 h
  have hleads := (leads_of_resolve hresolve).grows hgrows (by simp)
  rw [file?_eq_some_iff, resolve_eq_follow hresolve]
  exact ⟨l, hleads.follow_eq⟩

theorem grows_rewrite (d : Disk) (number : ℕ) (bytes : ByteArray) :
    d.Grows (d.rewrite number bytes) :=
  ⟨rfl, id⟩

theorem grows_create {l : Location} (hfree : d.find? l = none) (bytes : ByteArray) :
    d.Grows (d.create l bytes) := by
  refine ⟨rfl, fun {l' e} h => ?_⟩
  have hne : (l' == l) = false := by
    rw [beq_eq_false_iff_ne]
    rintro rfl
    cases hfree.symm.trans h
  rw [find?] at h ⊢
  split_ifs at h ⊢
  · exact h
  · rw [create, List.lookup_cons, hne]
    exact h

theorem content_rewrite_self (h : number < d.files.length) (bytes : ByteArray) :
    (d.rewrite number bytes).content number = bytes := by
  simp [content, rewrite, List.getD_eq_getElem?_getD, h]

theorem content_rewrite_of_ne {number' : ℕ} (h : number' ≠ number) (bytes : ByteArray) :
    (d.rewrite number bytes).content number' = d.content number' := by
  simp [content, rewrite, List.getD_eq_getElem?_getD, List.getElem?_set_ne h.symm]

theorem content_create (h : number < d.files.length) (l : Location) (bytes : ByteArray) :
    (d.create l bytes).content number = d.content number := by
  simp [content, create, List.getD_eq_getElem?_getD, List.getElem?_append_left h]

theorem writeBytes_of_file? (h : d.file? path = some number) (hwritable : number ∉ d.readOnly)
    (bytes : ByteArray) : d.writeBytes path bytes = .ok (d.rewrite number bytes) := by
  obtain ⟨l, hresolve⟩ := file?_eq_some_iff.1 h
  simp [writeBytes, hresolve, hwritable]

/-- What is written goes into the file that the path leads to, or into a new one. -/
theorem eq_of_writeBytes (h : d.writeBytes path bytes = .ok after) :
    (∃ number, d.file? path = some number ∧ number ∉ d.readOnly ∧
        after = d.rewrite number bytes) ∨
      ∃ l, d.find? l = none ∧ after = d.create l bytes := by
  unfold writeBytes at h
  match hresolve : d.resolve path, h with
  | .ok ⟨l, .file number, false⟩, h =>
    simp only [Bool.false_eq_true, if_false] at h
    split_ifs at h with hreadOnly
    exact .inl ⟨number, file?_eq_some_iff.2 ⟨l, hresolve⟩, hreadOnly, (Except.ok.inj h).symm⟩
  | .ok ⟨l, .nothing, false⟩, h =>
    refine .inr ⟨l, (leads_of_resolve hresolve).find?_location (by simp), ?_⟩
    simp only [Bool.false_eq_true, if_false] at h
    split_ifs at h
    exact (Except.ok.inj h).symm

/-- Two paths lead to one file. -/
def SameFile (d : Disk) (path other : String) : Prop :=
  ∃ number, d.file? path = some number ∧ d.file? other = some number

/-- A path leads to a file that may not be written. -/
def IsReadOnly (d : Disk) (path : String) : Prop :=
  ∃ number ∈ d.readOnly, d.file? path = some number

/-- **Writing keeps what it does not lead to, and what may not be written.** -/
theorem readBytes_of_writeBytes {other : String} (h : d.SameFile path other → d.IsReadOnly path)
    (hread : d.readBytes path = .ok bytes) (hwrite : d.writeBytes other text = .ok after) :
    after.readBytes path = .ok bytes := by
  obtain ⟨number, hfile, hcontent⟩ := readBytes_eq_ok_iff.1 hread
  rw [readBytes_eq_ok_iff]
  obtain ⟨number', hother, hwritable, rfl⟩ | ⟨l, hfree, rfl⟩ := eq_of_writeBytes hwrite
  · have hne : number ≠ number' := by
      rintro rfl
      obtain ⟨number', hreadOnly, hfile'⟩ := h ⟨number, hfile, hother⟩
      obtain rfl := Option.some.inj (hfile.symm.trans hfile')
      exact hwritable hreadOnly
    exact ⟨number, (grows_rewrite d number' text).file?_eq_some hfile,
      (content_rewrite_of_ne hne text).trans hcontent⟩
  · exact ⟨number, (grows_create hfree text).file?_eq_some hfile,
      (content_create (lt_of_file? hfile) l text).trans hcontent⟩

/-- Writing replaces what it leads to, if that may be written. -/
theorem exists_writeBytes_of_sameFile {other : String} (h : d.SameFile path other)
    (hwritable : ¬ d.IsReadOnly path) (text : ByteArray) :
    ∃ after, d.writeBytes other text = .ok after ∧ after.readBytes path = .ok text := by
  obtain ⟨number, hfile, hother⟩ := h
  have hnumber : number ∉ d.readOnly := fun hreadOnly => hwritable ⟨number, hreadOnly, hfile⟩
  exact ⟨_, writeBytes_of_file? hother hnumber text, readBytes_eq_ok_iff.2
    ⟨number, (grows_rewrite d number text).file?_eq_some hfile,
      content_rewrite_self (lt_of_file? hfile) text⟩⟩

/-! ## Paths with one folder -/

/-- A path to a file is followed to the part after its folder, and ends there. -/
theorem leads_of_file? (hfolder : IsFolder folder) (hslash : '/' ∉ name) (hnil : name ≠ [])
    (h : d.file? (String.ofList (folder ++ name)) = some number) :
    ∃ slashed l, d.Leads linkLimit slashed [] (parts (String.ofList folder) ++ [String.ofList name])
      ⟨l, .file number, false⟩ := by
  obtain ⟨l, hresolve⟩ := file?_eq_some_iff.1 h
  rw [← parts_append hfolder hslash hnil]
  exact ⟨_, l, leads_of_resolve hresolve⟩

/-- What can be read has a file name. -/
theorem exists_isFileName (h : d.file? path = some number) :
    ∃ folder name, IsFolder folder ∧ IsFileName name ∧ path = String.ofList (folder ++ name) := by
  obtain ⟨l, hresolve⟩ := file?_eq_some_iff.1 h
  obtain ⟨folder, name, hfolder, hslash, hcut⟩ := exists_folder_append path.toList
  obtain rfl : path = String.ofList (folder ++ name) := by rw [← hcut, String.ofList_toList]
  have hnil : name ≠ [] := by
    rintro rfl
    obtain rfl | ⟨above, rfl⟩ := hfolder
    · simp [resolve] at hresolve
    · have hslashed := (leads_of_resolve hresolve).slashed_eq (by simp [isSlashed])
      cases hslashed
  obtain ⟨slashed, l', hleads⟩ := leads_of_file? hfolder hslash hnil h
  have hdots : String.ofList name ≠ "." ∧ String.ofList name ≠ ".." := by
    rw [← not_or]
    intro hname
    cases hleads.found_eq_directory (by simpa using hname)
  refine ⟨folder, name, hfolder, ⟨hslash, hnil, ?_, ?_⟩, rfl⟩
  · rintro rfl
    exact hdots.1 rfl
  · rintro rfl
    exact hdots.2 rfl

/-- A disk without links on which every file has one name, and every name one spelling. -/
structure Plain (d : Disk) : Prop where
  no_link : ∀ l path, d.find? l ≠ some (.link path)
  one_name : ∀ {l l' number}, d.find? l = some (.file number) → d.find? l' = some (.file number) →
    l = l'
  spelling_injective : Function.Injective d.spelling

/-- The directory that a part of a path leads to from another. -/
def next? (d : Disk) (here : Location) (part : String) : Option Location :=
  if part = "." then some here
  else if part = ".." then some here.dropLast
  else if d.find? (here ++ [d.spelling part]) = some .directory then
    some (here ++ [d.spelling part])
  else none

namespace Plain

variable (hd : d.Plain)
include hd

theorem exists_next? (hps : ps ≠ []) (h : d.Leads links slashed here (part :: ps) target) :
    ∃ dir, d.next? here part = some dir ∧ d.Leads links slashed dir ps target := by
  cases h with
  | dot h => exact ⟨here, rfl, h⟩
  | dots h => exact ⟨here.dropLast, rfl, h⟩
  | directory hdot hdots hfind h => exact ⟨_, by simp [next?, hdot, hdots, hfind], h⟩
  | file | nothing => exact absurd rfl hps
  | link hdot hdots hfind => exact absurd hfind (hd.no_link _ _)

/-- Paths with one folder go through the same directories. -/
theorem exists_directory {before : List String} {part' : String} {links' : ℕ} {slashed' : Bool}
    {target' : Target} (h : d.Leads links slashed here (before ++ [part]) target)
    (h' : d.Leads links' slashed' here (before ++ [part']) target') :
    ∃ dir, d.Leads links slashed dir [part] target ∧
      d.Leads links' slashed' dir [part'] target' := by
  induction before generalizing here with
  | nil => exact ⟨here, h, h'⟩
  | cons first before ih =>
    obtain ⟨dir, hdir, hnext⟩ := hd.exists_next? (by simp) h
    obtain ⟨dir', hdir', hnext'⟩ := hd.exists_next? (by simp) h'
    obtain rfl : dir = dir' := Option.some.inj (hdir.symm.trans hdir')
    exact ih hnext hnext'

theorem find?_of_leads {l : Location} {slashed' : Bool}
    (h : d.Leads links slashed here [part] ⟨l, .file number, slashed'⟩) :
    d.find? (here ++ [d.spelling part]) = some (.file number) := by
  cases h with
  | dot h | dots h => cases h
  | directory hdot hdots hfind h => cases h
  | file hdot hdots hfind => exact hfind
  | link hdot hdots hfind => exact absurd hfind (hd.no_link _ _)

/-- Paths with one folder that lead to one file are one path. -/
theorem name_eq_of_sameFile (hfolder : IsFolder folder) (hname : '/' ∉ name) (hnil : name ≠ [])
    (hother : '/' ∉ other) (hnil' : other ≠ [])
    (h : d.SameFile (String.ofList (folder ++ name)) (String.ofList (folder ++ other))) :
    name = other := by
  obtain ⟨number, hfile, hfile'⟩ := h
  obtain ⟨slashed, l, hleads⟩ := leads_of_file? hfolder hname hnil hfile
  obtain ⟨slashed', l', hleads'⟩ := leads_of_file? hfolder hother hnil' hfile'
  obtain ⟨dir, hlast, hlast'⟩ := hd.exists_directory hleads hleads'
  have hplaces := hd.one_name (hd.find?_of_leads hlast) (hd.find?_of_leads hlast')
  have hspelling : d.spelling (String.ofList name) = d.spelling (String.ofList other) :=
    List.singleton_inj.1 (List.append_cancel_left hplaces)
  exact String.ofList_inj.1 (hd.spelling_injective hspelling)

end Plain

end PageBuilder.Files.Disk
